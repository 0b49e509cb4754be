import ScopeMachine.Instruction.Text
import ScopeMachine.Proofs.Spelling

/-! # Texts that can be told apart

A text made of several pieces says what the pieces are only if none of them can be taken for a
shorter or a longer one. Each piece here is read up to what follows it: a number up to the first
character that is no digit, a row up to the first that starts no other row.

* `Stops` says that what follows does not go on with characters of a class;
* `Legible` says that two values are told apart by their texts, whatever stands behind these, and
  there is one lemma for each way of putting texts together;
* `legible_rows` and `legible_items` are the texts of lists. -/

namespace ScopeMachine

/-! ### Where a piece ends -/

/-- What follows does not begin with a character of the class. -/
def Stops (inside : Char → Bool) (rest : List Char) : Prop :=
  ∀ c ∈ rest.head?, inside c = false

-- one character is looked at; a statement about characters alone would be decided by trying all
instance (inside : Char → Bool) (rest : List Char) : Decidable (Stops inside rest) :=
  Option.decidableForallMem rest.head?

section
variable {inside : Char → Bool}

/-- The first character decides. -/
theorem stops_cons {c : Char} (outside : inside c = false) (rest : List Char) :
    Stops inside (c :: rest) := by
  intro first isFirst
  cases isFirst
  exact outside

/-- A text that may be empty, and what follows it. -/
theorem Stops.append {text rest : List Char} (outside : Stops inside text)
    (ends : Stops inside rest) : Stops inside (text ++ rest) := by
  cases text with
  | nil => exact ends
  | cons c text => exact stops_cons (outside c rfl) _

/-- A fixed text that is not empty decides. -/
theorem stops_text {text : String}
    (outside : (text.toList.head?.any fun c => !inside c) = true) (rest : List Char) :
    Stops inside (text.toList ++ rest) := by
  cases chars : text.toList with
  | nil =>
      rw [chars] at outside
      cases outside
  | cons c others =>
      rw [chars] at outside
      exact stops_cons (by simpa using outside) _

/-- What begins with no character of a class begins with none of a smaller class. -/
theorem Stops.mono {smaller : Char → Bool} {rest : List Char} (ends : Stops inside rest)
    (fewer : ∀ c, smaller c = true → inside c = true) : Stops smaller rest := by
  intro c isFirst
  refine Bool.eq_false_iff.mpr fun member => ?_
  exact absurd (fewer c member) (by rw [ends c isFirst]; decide)

/-- The longest run of characters of a class is taken off. -/
theorem takeWhile_append_of_stops {run rest : List Char} (proper : ∀ c ∈ run, inside c = true)
    (ends : Stops inside rest) : (run ++ rest).takeWhile inside = run := by
  rw [List.takeWhile_append_of_pos proper]
  cases rest with
  | nil => rw [List.takeWhile_nil, List.append_nil]
  | cons c rest =>
      rw [List.takeWhile_cons_of_neg (by rw [ends c rfl]; decide), List.append_nil]

/-- **Runs are told apart**, and so is what follows them. -/
theorem append_inj_of_stops {left right rest others : List Char}
    (properLeft : ∀ c ∈ left, inside c = true) (properRight : ∀ c ∈ right, inside c = true)
    (ends : Stops inside rest) (othersEnd : Stops inside others)
    (same : left ++ rest = right ++ others) : left = right ∧ rest = others := by
  have runs : left = right := by
    rw [← takeWhile_append_of_stops properLeft ends, same,
      takeWhile_append_of_stops properRight othersEnd]
  rw [runs] at same
  exact ⟨runs, List.append_cancel_left same⟩

end

/-! ### Values that are told apart -/

/-- The values can be told apart by their texts: if these are continued in ways that `follows`
admits, and the results are the same, then so are the values, and so is what follows. -/
def Legible {α : Type} (write : α → String) (follows : List Char → Prop) (left right : α) : Prop :=
  ∀ ⦃rest others : List Char⦄, follows rest → follows others →
    (write left).toList ++ rest = (write right).toList ++ others → left = right ∧ rest = others

section
variable {α β : Type} {write : α → String} {follows : List Char → Prop} {left right : α}

/-- Fewer texts may follow. -/
theorem Legible.mono (legible : Legible write follows left right) {fewer : List Char → Prop}
    (admitted : ∀ {rest}, fewer rest → follows rest) : Legible write fewer left right :=
  fun _ _ ends othersEnd => legible (admitted ends) (admitted othersEnd)

/-- Texts may be given in another form. -/
theorem Legible.congr (legible : Legible write follows left right) {form : α → String}
    (same : ∀ value, form value = write value) : Legible form follows left right := by
  rw [funext same]
  exact legible

/-- A text that stands in front of all values tells nothing. -/
theorem Legible.behind (legible : Legible write follows left right) (front : String) :
    Legible (fun value => front ++ write value) follows left right := by
  intro rest others ends othersEnd same
  rw [String.toList_append, String.toList_append, List.append_assoc, List.append_assoc] at same
  exact legible ends othersEnd (List.append_cancel_left same)

/-- A fixed text behind the values ends them. -/
theorem Legible.followed {inside : Char → Bool} (legible : Legible write (Stops inside) left right)
    {text : String} (outside : (text.toList.head?.any fun c => !inside c) = true)
    {rest others : List Char}
    (same : (write left).toList ++ (text.toList ++ rest) =
      (write right).toList ++ (text.toList ++ others)) : left = right ∧ rest = others := by
  obtain ⟨values, after⟩ := legible (stops_text outside rest) (stops_text outside others) same
  exact ⟨values, List.append_cancel_left after⟩

/-- Values are told apart by what determines them. -/
theorem Legible.of {key : β → α} {left right : β}
    (legible : Legible write follows (key left) (key right))
    (determines : key left = key right → left = right) :
    Legible (fun value => write (key value)) follows left right := by
  intro rest others ends othersEnd same
  obtain ⟨keys, after⟩ := legible ends othersEnd same
  exact ⟨determines keys, after⟩

/-- Texts of the same length tell values apart if they differ at all. -/
theorem legible_of_length (lengths : (write left).toList.length = (write right).toList.length)
    (determines : write left = write right → left = right) : Legible write follows left right := by
  intro rest others _ _ same
  obtain ⟨texts, after⟩ := List.append_inj same lengths
  exact ⟨determines (String.toList_injective texts), after⟩

/-- Runs of characters tell values apart if they differ at all. -/
theorem legible_of_run {inside : Char → Bool}
    (properLeft : ∀ c ∈ (write left).toList, inside c = true)
    (properRight : ∀ c ∈ (write right).toList, inside c = true)
    (determines : write left = write right → left = right) :
    Legible write (Stops inside) left right := by
  intro rest others ends othersEnd same
  obtain ⟨texts, after⟩ := append_inj_of_stops properLeft properRight ends othersEnd same
  exact ⟨determines (String.toList_injective texts), after⟩

end

/-! ### Parts that may be missing -/

/-- A text that differs from an opening does not start with it, whatever follows. -/
theorem not_prefix_append (opening text : String)
    (differs : ((opening.toList.zip text.toList).any fun pair => pair.1 != pair.2) = true)
    (rest : List Char) : ¬ opening.toList <+: text.toList ++ rest := by
  revert differs
  generalize opening.toList = expected
  generalize text.toList = found
  intro differs starts
  induction expected generalizing found with
  | nil => cases differs
  | cons c expected ih =>
      cases found with
      | nil => cases differs
      | cons d found =>
          obtain ⟨same, starts⟩ := List.cons_prefix_cons.mp starts
          rw [List.zip_cons_cons, List.any_cons, same, bne_self_eq_false, Bool.false_or] at differs
          exact ih found differs starts

section
variable {α : Type} {write : α → String}

/-- The text of a value behind an opening; nothing if there is none. -/
def optionText (opening : String) (write : α → String) (value : Option α) : String :=
  value.elim "" fun value => opening ++ write value

/-- **Parts that may be missing are told apart** if what follows does not start with the opening. -/
theorem legible_option (opening : String)
    (legible : ∀ value other, Legible write (fun _ => True) value other) (left right : Option α) :
    Legible (optionText opening write) (fun rest => ¬ opening.toList <+: rest) left right := by
  have starts : ∀ value rest, opening.toList <+: (opening ++ write value).toList ++ rest := by
    intro value rest
    rw [String.toList_append, List.append_assoc]
    exact List.prefix_append _ _
  intro rest others ends othersEnd same
  match left, right with
  | none, none => exact ⟨rfl, same⟩
  | none, some value =>
      have same : rest = (opening ++ write value).toList ++ others := same
      exact absurd (starts value others) (by rw [← same]; exact ends)
  | some value, none =>
      have same : (opening ++ write value).toList ++ rest = others := same
      exact absurd (starts value rest) (by rw [same]; exact othersEnd)
  | some value, some other =>
      obtain ⟨rfl, after⟩ := (legible value other).behind opening trivial trivial same
      exact ⟨rfl, after⟩

end

/-! ### Numbers -/

/-- The digits of a number are digits. -/
theorem isDigit_of_mem_repr (number : Nat) : ∀ c ∈ number.repr.toList, c.isDigit = true := by
  rw [Nat.toList_repr]
  exact fun c => Nat.isDigit_of_mem_toDigits (by decide) (by decide)

/-- The digits of a number start with a digit. -/
theorem exists_repr_eq_cons (number : Nat) :
    ∃ c digits, number.repr.toList = c :: digits ∧ c.isDigit = true := by
  obtain ⟨digit, digits, starts, -⟩ := Json.toDigits_eq_digitChar_cons number
  rw [← Nat.toList_repr] at starts
  refine ⟨_, digits, starts, isDigit_of_mem_repr number _ ?_⟩
  rw [starts]
  exact List.mem_cons_self

/-- No number starts with another character. -/
theorem repr_append_ne_cons {c : Char} (notDigit : c.isDigit = false) (number : Nat)
    (rest others : List Char) : number.repr.toList ++ rest ≠ c :: others := by
  obtain ⟨first, digits, starts, isDigit⟩ := exists_repr_eq_cons number
  rw [starts, List.cons_append]
  intro same
  rw [(List.cons.inj same).1, notDigit] at isDigit
  cases isDigit

/-- **Decimal numbers** are read up to the first character that is no digit. -/
theorem legible_natural (left right : Nat) : Legible Nat.repr (Stops Char.isDigit) left right := by
  refine legible_of_run (isDigit_of_mem_repr left) (isDigit_of_mem_repr right) fun same => ?_
  have read := Text.natural?_toDigits left
  rw [← Nat.toList_repr, same, Nat.toList_repr, Text.natural?_toDigits] at read
  exact (Option.some.inj read).symm

/-- Negative numbers start with a minus sign. -/
theorem toList_negSucc (number : Nat) (rest : List Char) :
    (Int.negSucc number).repr.toList ++ rest = '-' :: (number.succ.repr.toList ++ rest) := by
  show ("-" ++ number.succ.repr).toList ++ rest = _
  rw [String.toList_append]
  rfl

/-- Integers with a minus sign if they are negative. -/
theorem legible_integer (left right : Int) : Legible Int.repr (Stops Char.isDigit) left right := by
  have minus : Char.isDigit '-' = false := by decide
  intro rest others ends othersEnd same
  match left, right with
  | .ofNat left, .ofNat right =>
      obtain ⟨rfl, after⟩ := legible_natural left right ends othersEnd same
      exact ⟨rfl, after⟩
  | .ofNat left, .negSucc right =>
      rw [toList_negSucc] at same
      exact absurd same (repr_append_ne_cons minus left rest _)
  | .negSucc left, .ofNat right =>
      rw [toList_negSucc] at same
      exact absurd same.symm (repr_append_ne_cons minus right others _)
  | .negSucc left, .negSucc right =>
      rw [toList_negSucc, toList_negSucc] at same
      obtain ⟨numbers, after⟩ :=
        legible_natural left.succ right.succ ends othersEnd (List.cons.inj same).2
      exact ⟨by rw [Nat.succ.inj numbers], after⟩

/-- Numbers that are not negative start with a plus sign. -/
theorem toList_signedText_natCast (number : Nat) (rest : List Char) :
    (signedText number).toList ++ rest = '+' :: (number.repr.toList ++ rest) := by
  rw [signedText, if_neg (by omega), String.toList_append]
  rfl

/-- Negative numbers are written as without a plus sign for the others. -/
theorem signedText_negSucc (number : Nat) :
    signedText (.negSucc number) = (Int.negSucc number).repr := by
  rw [signedText, if_pos (by omega)]

/-- Integers with a sign in any case. -/
theorem legible_signed (left right : Int) : Legible signedText (Stops Char.isDigit) left right := by
  intro rest others ends othersEnd same
  match left, right with
  | (left : Nat), (right : Nat) =>
      rw [toList_signedText_natCast, toList_signedText_natCast] at same
      obtain ⟨rfl, after⟩ := legible_natural left right ends othersEnd (List.cons.inj same).2
      exact ⟨rfl, after⟩
  | (left : Nat), .negSucc right =>
      rw [toList_signedText_natCast, signedText_negSucc, toList_negSucc] at same
      exact absurd (List.cons.inj same).1 (by decide)
  | .negSucc left, (right : Nat) =>
      rw [toList_signedText_natCast, signedText_negSucc, toList_negSucc] at same
      exact absurd (List.cons.inj same).1 (by decide)
  | .negSucc left, .negSucc right =>
      rw [signedText_negSucc, signedText_negSucc] at same
      exact legible_integer (.negSucc left) (.negSucc right) ends othersEnd same

/-! ### Lists -/

/-- Rows that stand one behind the other, each written for its position. -/
def rows {α : Type} (row : α → Nat → String) (start : Nat) (entries : List α) : String :=
  String.join ((entries.zipIdx start).map fun entry => row entry.1 entry.2)

section
variable {α : Type} {row : α → Nat → String} {starts : Char → Bool} {follows : List Char → Prop}

/-- The first row comes first. -/
theorem toList_rows_cons (entry : α) (entries : List α) (start : Nat) (rest : List Char) :
    (rows row start (entry :: entries)).toList ++ rest =
      (row entry start).toList ++ ((rows row (start + 1) entries).toList ++ rest) := by
  rw [rows, List.zipIdx_cons, List.map_cons, String.join_cons, String.toList_append,
    List.append_assoc]
  rfl

/-- What follows a row is another row, or what follows them all. -/
theorem follows_rows
    (begins : ∀ entry position, ∃ c text, (row entry position).toList = c :: text ∧
      starts c = true)
    (goesOn : ∀ c text, starts c = true → follows (c :: text)) (entries : List α) (start : Nat)
    {rest : List Char} (ends : follows rest) :
    follows ((rows row start entries).toList ++ rest) := by
  cases entries with
  | nil => exact ends
  | cons entry entries =>
      obtain ⟨c, text, first, isStart⟩ := begins entry start
      rw [toList_rows_cons, first, List.cons_append]
      exact goesOn _ _ isStart

/-- **Rows are told apart**, together with their number, if each of them is, and none can be taken
for what follows them all. -/
theorem legible_rows {left right : List α} (start : Nat)
    (legible : ∀ entry ∈ left, ∀ other ∈ right, ∀ position,
      Legible (row · position) follows entry other)
    (begins : ∀ entry position, ∃ c text, (row entry position).toList = c :: text ∧
      starts c = true)
    (goesOn : ∀ c text, starts c = true → follows (c :: text)) :
    Legible (rows row start) (fun rest => follows rest ∧ Stops starts rest) left right := by
  have noRow : ∀ entry entries start rest others, Stops starts others →
      others ≠ (rows row start (entry :: entries)).toList ++ rest := by
    intro entry entries start rest others ends same
    obtain ⟨c, text, first, isStart⟩ := begins entry start
    rw [toList_rows_cons, first, List.cons_append] at same
    rw [ends c (by rw [same]; rfl)] at isStart
    cases isStart
  induction left generalizing right start with
  | nil =>
      intro rest others ends othersEnd same
      cases right with
      | nil => exact ⟨rfl, same⟩
      | cons other right => exact absurd same (noRow other right start others rest ends.2)
  | cons entry left ih =>
      intro rest others ends othersEnd same
      cases right with
      | nil => exact absurd same.symm (noRow entry left start rest others othersEnd.2)
      | cons other right =>
          rw [toList_rows_cons, toList_rows_cons] at same
          obtain ⟨rfl, below⟩ := legible entry List.mem_cons_self other List.mem_cons_self start
            (follows_rows begins goesOn left (start + 1) ends.1)
            (follows_rows begins goesOn right (start + 1) othersEnd.1) same
          obtain ⟨rfl, after⟩ := ih (start + 1)
            (fun entry member other others => legible entry (List.mem_cons_of_mem _ member) other
              (List.mem_cons_of_mem _ others)) ends othersEnd below
          exact ⟨rfl, after⟩

end

section
variable {α : Type} {write : α → String} {follows : List Char → Prop}

/-- Items with commas between them, up to a bracket. -/
def itemsText (write : α → String) (items : List α) : String :=
  String.intercalate ", " (items.map write) ++ "]"

/-- Items that are joined by commas are the first one and rows that start with commas. -/
theorem intercalate_map_cons (write : α → String) (item : α) (items : List α) (start : Nat) :
    String.intercalate ", " ((item :: items).map write) =
      write item ++ rows (fun item _ => ", " ++ write item) start items := by
  induction items generalizing item start with
  | nil => exact String.append_empty.symm
  | cons next items ih =>
      rw [List.map_cons, List.map_cons, String.intercalate_cons_cons, ← List.map_cons,
        ih next (start + 1)]
      simp only [rows, List.zipIdx_cons, List.map_cons, String.join_cons, String.append_assoc]

/-- Without items there is the bracket. -/
theorem toList_itemsText_nil (write : α → String) (rest : List Char) :
    (itemsText write []).toList ++ rest = ']' :: rest := by
  rw [itemsText, List.map_nil, String.intercalate_nil]
  rfl

/-- The first item comes first. -/
theorem toList_itemsText_cons (write : α → String) (item : α) (items : List α)
    (rest : List Char) :
    (itemsText write (item :: items)).toList ++ rest = (write item).toList ++
      ((rows (fun item _ => ", " ++ write item) 0 items).toList ++ ']' :: rest) := by
  rw [itemsText, intercalate_map_cons write item items 0, String.toList_append,
    String.toList_append, List.append_assoc, List.append_assoc]
  rfl

/-- **Items up to a bracket are told apart** if each of them is, and none can be taken for the
bracket. -/
theorem legible_items (legible : ∀ item other, Legible write follows item other)
    (begins : ∀ item, ∃ c text, (write item).toList = c :: text ∧ c ≠ ']')
    (comma : ∀ text, follows (',' :: text)) (bracket : ∀ text, follows (']' :: text))
    (left right : List α) : Legible (itemsText write) (fun _ => True) left right := by
  have apart : ∀ item items rest others,
      (itemsText write (item :: items)).toList ++ rest ≠ ']' :: others := by
    intro item items rest others same
    obtain ⟨c, text, first, notBracket⟩ := begins item
    rw [toList_itemsText_cons, first, List.cons_append] at same
    exact notBracket (List.cons.inj same).1
  have starts : ∀ item (position : Nat), ∃ c text, (", " ++ write item).toList = c :: text ∧
      (c == ',') = true :=
    fun item _ => ⟨',', ' ' :: (write item).toList, by rw [String.toList_append]; rfl, rfl⟩
  have goesOn : ∀ (c : Char) text, (c == ',') = true → follows (c :: text) := by
    intro c text isComma
    rw [beq_iff_eq.mp isComma]
    exact comma text
  have closed : ∀ text, follows (']' :: text) ∧ Stops (· == ',') (']' :: text) :=
    fun text => ⟨bracket text, stops_cons (by decide) text⟩
  intro rest others _ _ same
  match left, right with
  | [], [] => exact ⟨rfl, List.append_cancel_left same⟩
  | [], other :: right =>
      rw [toList_itemsText_nil] at same
      exact absurd same.symm (apart other right others rest)
  | item :: left, [] =>
      rw [toList_itemsText_nil] at same
      exact absurd same (apart item left rest others)
  | item :: left, other :: right =>
      rw [toList_itemsText_cons, toList_itemsText_cons] at same
      obtain ⟨rfl, below⟩ := legible item other (follows_rows starts goesOn left 0 (bracket rest))
        (follows_rows starts goesOn right 0 (bracket others)) same
      obtain ⟨rfl, after⟩ := legible_rows 0
        (fun item _ other _ _ => (legible item other).behind ", ") starts goesOn
        (closed rest) (closed others) below
      exact ⟨rfl, (List.cons.inj after).2⟩

end

end ScopeMachine
