import ScopeMachine.Instruction.Json
import ScopeMachine.Module.Listing
import ScopeMachine.Proofs.Import
import ScopeMachine.Proofs.Legible
import ScopeMachine.Proofs.Texts

/-! # Listings lose nothing

The listing of a module is written for readers, but it says all there is to say: two modules that
builders hold or give out have the same listing only if they are the same. Numbers are padded and
many parts are left out when they are empty, so each piece has to be told apart from what follows.

* `OperandKind.legible` and `Opcode.legible` are the pieces of an instruction, and
  `Instruction.text_eq` says that all instructions are put together from them in the same way;
* `VarType.legible_listing` and its kin are the lines of the tables, read one after another;
* `listing_lossless` puts this together for the descriptions of builders. -/

namespace ScopeMachine

/-! ### Identifiers -/

/-- Registers. -/
theorem RegId.legible (left right : RegId) :
    Legible RegId.text (Stops Char.isDigit) left right :=
  ((legible_natural _ _).of RegId.ext_index).behind "R"

/-- Variable types. -/
theorem VarTypeId.legible (left right : VarTypeId) :
    Legible VarTypeId.text (Stops Char.isDigit) left right :=
  ((legible_natural _ _).of fun same =>
    congrArg VarTypeId.mk (UInt32.toNat_inj.mp same)).behind "T"

/-- Procedure types. -/
theorem ProcTypeId.legible (left right : ProcTypeId) :
    Legible ProcTypeId.text (Stops Char.isDigit) left right :=
  ((legible_natural _ _).of fun same =>
    congrArg ProcTypeId.mk (UInt32.toNat_inj.mp same)).behind "P"

/-- Procedures. -/
theorem ProcId.legible (left right : ProcId) :
    Legible ProcId.text (Stops Char.isDigit) left right :=
  ((legible_natural _ _).of fun same =>
    congrArg ProcId.mk (UInt32.toNat_inj.mp same)).behind "F"

/-- Identities of modules. -/
theorem ModuleId.legible (left right : ModuleId) :
    Legible ModuleId.text (fun _ => True) left right := by
  refine legible_of_length ?_ fun same => ?_
  · rw [length_toList_text, length_toList_text]
  · have read := parse?_text left
    rw [same, parse?_text] at read
    exact (Option.some.inj read).symm

/-- Whether a character is not blank. -/
def Text.isSolid (c : Char) : Bool := !isBlank c

namespace Flags

variable {kind : FlagKind}

/-- There are at most eight sets of flags that have names. -/
theorem exists_of_isKnown {flags : Flags kind} (known : flags.isKnown = true) :
    ∃ number < 8, flags = ⟨UInt8.ofNat number⟩ := by
  have few : ∀ number < 256, (⟨UInt8.ofNat number⟩ : Flags kind).isKnown = true → number < 8 := by
    cases kind <;> decide +kernel
  have whole : flags = ⟨UInt8.ofNat flags.bits.toNat⟩ := by rw [UInt8.ofNat_toNat]
  rw [whole] at known
  exact ⟨_, few _ flags.bits.toNat_lt known, whole⟩

/-- Sets of flags that have names are listed without blanks. -/
theorem isSolid_of_mem_listed {flags : Flags kind} (known : flags.isKnown = true) :
    ∀ c ∈ flags.listed.toList, Text.isSolid c = true := by
  have all : ∀ number < 8,
      (⟨UInt8.ofNat number⟩ : Flags kind).listed.toList.all Text.isSolid = true := by
    cases kind <;> decide +kernel
  obtain ⟨number, small, rfl⟩ := exists_of_isKnown known
  exact List.all_eq_true.mp (all number small)

/-- **Sets of flags that have names** are told apart by the names. -/
theorem legible {left right : Flags kind} (knownLeft : left.isKnown = true)
    (knownRight : right.isKnown = true) : Legible listed (Stops Text.isSolid) left right := by
  refine legible_of_run (isSolid_of_mem_listed knownLeft) (isSolid_of_mem_listed knownRight) ?_
  have all : ∀ number < 8, ∀ other < 8, (⟨UInt8.ofNat number⟩ : Flags kind).isKnown = true →
      (⟨UInt8.ofNat other⟩ : Flags kind).isKnown = true →
      (⟨UInt8.ofNat number⟩ : Flags kind).listed = (⟨UInt8.ofNat other⟩ : Flags kind).listed →
      number = other := by
    cases kind <;> decide +kernel
  obtain ⟨number, small, rfl⟩ := exists_of_isKnown knownLeft
  obtain ⟨other, otherSmall, rfl⟩ := exists_of_isKnown knownRight
  intro same
  rw [all number small other otherSmall knownLeft knownRight same]

end Flags

/-! ### Operands -/

/-- The text of one operand. -/
def OperandKind.text : (kind : OperandKind) → kind.Value → String
  | register, reg => reg.text
  | literal1, literal => literal.toInt.repr
  | literal2, literal => literal.toInt.repr
  | literal4, literal => literal.toInt.repr
  | literal8, literal => literal.toInt.repr
  | jumpOffset, offset => signedText offset.toInt
  | scopeCount, count => count.toNat.repr
  | byteOffset, offset => offset.toNat.repr
  | referenceSlot, slot => slot.toNat.repr
  | procedure, proc => proc.text

/-- Operands of every kind end with the last of their digits. -/
theorem OperandKind.legible (kind : OperandKind) (left right : kind.Value) :
    Legible kind.text (Stops Char.isDigit) left right := by
  cases kind with
  | register => exact RegId.legible left right
  | literal1 => exact (legible_integer _ _).of Int8.toInt_inj.mp
  | literal2 => exact (legible_integer _ _).of Int16.toInt_inj.mp
  | literal4 => exact (legible_integer _ _).of Int32.toInt_inj.mp
  | literal8 => exact (legible_integer _ _).of Int64.toInt_inj.mp
  | jumpOffset => exact (legible_signed _ _).of Int32.toInt_inj.mp
  | scopeCount | byteOffset | referenceSlot => exact (legible_natural _ _).of UInt32.toNat_inj.mp
  | procedure => exact ProcId.legible left right

namespace Operands

/-- Operands, each behind an opening, and what closes them. -/
def text (closing : String) : (kinds : List OperandKind) → List String → Operands kinds → String
  | kind :: kinds, opening :: openings, (value, operands) =>
      opening ++ kind.text value ++ text closing kinds openings operands
  | [], _, _ | _ :: _, [], _ => closing

variable {closing : String} {kinds : List OperandKind} {openings : List String}

/-- What cannot go on with a letter or digit: an opening, the closing, or what follows. -/
theorem stops_text (opened : ∀ opening ∈ openings,
      (opening.toList.head?.any fun c => !c.isAlphanum) = true)
    (closed : Stops Char.isAlphanum closing.toList) (operands : Operands kinds)
    {rest : List Char} (ends : Stops Char.isAlphanum rest) :
    Stops Char.isAlphanum ((text closing kinds openings operands).toList ++ rest) := by
  match kinds, openings, operands with
  | kind :: kinds, opening :: openings, (value, operands) =>
      rw [text, String.append_assoc, String.toList_append, List.append_assoc]
      exact ScopeMachine.stops_text (opened opening List.mem_cons_self) _
  | [], _, _ | _ :: _, [], _ => exact closed.append ends

/-- **Operands are told apart** if there is an opening for each of them. -/
theorem legible (opened : ∀ opening ∈ openings,
      (opening.toList.head?.any fun c => !c.isAlphanum) = true)
    (closed : Stops Char.isAlphanum closing.toList) (matched : openings.length = kinds.length)
    (left right : Operands kinds) :
    Legible (text closing kinds openings) (Stops Char.isAlphanum) left right := by
  induction kinds generalizing openings with
  | nil =>
      intro rest others _ _ same
      exact ⟨rfl, List.append_cancel_left same⟩
  | cons kind kinds ih =>
      intro rest others ends othersEnd same
      obtain ⟨value, left⟩ := left
      obtain ⟨other, right⟩ := right
      cases openings with
      | nil => cases matched
      | cons opening openings =>
          have digits : ∀ c : Char, c.isDigit = true → c.isAlphanum = true := by
            intro c isDigit
            rw [Char.isAlphanum, isDigit, Bool.or_true]
          have opened := fun opening member => opened opening (List.mem_cons_of_mem _ member)
          have further := fun (operands : Operands kinds) {rest} =>
            @stops_text closing kinds openings opened closed operands rest
          simp only [text, String.toList_append, List.append_assoc] at same
          obtain ⟨rfl, below⟩ := kind.legible value other ((further left ends).mono digits)
            ((further right othersEnd).mono digits) (List.append_cancel_left same)
          obtain ⟨rfl, after⟩ := ih opened (Nat.succ.inj matched) left right ends othersEnd below
          exact ⟨rfl, after⟩

end Operands

/-! ### Instructions -/

namespace Opcode

/-- The blanks between mnemonic and operands. -/
def gap (opcode : Opcode) : String :=
  String.ofList (List.replicate (6 - opcode.mnemonic.length) ' ')

/-- What stands in front of each operand. -/
def openings (opcode : Opcode) : List String :=
  match opcode with
  | inc | dec | als | alsr | frs | push | pushr | pushh | pop | jmp | frsl | popl | call =>
      [opcode.gap]
  | cpi1 | cpi2 | cpi4 | cpi8 | jz | jnz | jgz | jngz | cpb => [opcode.gap, ", "]
  | add | sub | mul | jg | jng | je => [opcode.gap, ", ", ", "]
  | lde => [opcode.gap, ", ", "["]
  | ste => [opcode.gap, "[", "], "]
  | ldb => [opcode.gap, ", ", "+"]
  | stb => [opcode.gap, "+", ", "]
  | ldr => [opcode.gap, ", ", ".ref"]
  | str => [opcode.gap, ".ref", ", "]
  | throw | ret => []

/-- What stands behind the last operand. -/
def closing : Opcode → String
  | lde => "]"
  | _ => ""

/-- A mnemonic finds its opcode again. -/
theorem ofMnemonic?_mnemonic (opcode : Opcode) : ofMnemonic? opcode.mnemonic = some opcode := by
  cases opcode <;> decide

/-- Mnemonics are letters and digits. -/
theorem isAlphanum_of_mem_mnemonic (opcode : Opcode) :
    ∀ c ∈ opcode.mnemonic.toList, c.isAlphanum = true := by
  rw [← List.all_eq_true]
  cases opcode <;> decide

/-- Mnemonics are told apart. -/
theorem legible (left right : Opcode) :
    Legible mnemonic (Stops Char.isAlphanum) left right := by
  refine legible_of_run left.isAlphanum_of_mem_mnemonic right.isAlphanum_of_mem_mnemonic ?_
  intro same
  have read := ofMnemonic?_mnemonic left
  rw [same, ofMnemonic?_mnemonic] at read
  exact (Option.some.inj read).symm

/-- There is an opening for each operand. -/
theorem length_openings (opcode : Opcode) : opcode.openings.length = opcode.signature.length := by
  cases opcode <;> rfl

/-- No opening can be taken for more of what stands in front of it. -/
theorem opened (opcode : Opcode) : ∀ opening ∈ opcode.openings,
    (opening.toList.head?.any fun c => !c.isAlphanum) = true := by
  cases opcode <;> decide

/-- Nor can the closing. -/
theorem closed (opcode : Opcode) : Stops Char.isAlphanum opcode.closing.toList := by
  cases opcode <;> decide

end Opcode

namespace Instruction

/-- **All texts of instructions are made in the same way**: the mnemonic, and the operands, each
behind an opening. -/
theorem text_eq (instruction : Instruction) :
    instruction.text = instruction.opcode.mnemonic ++ Operands.text instruction.opcode.closing
      instruction.opcode.signature instruction.opcode.openings instruction.operands := by
  cases instruction <;>
    simp [text, operandText, padRight, Operands.text, OperandKind.text, opcode, operands,
      Opcode.openings, Opcode.gap, Opcode.closing, String.append_assoc]

/-- **Instructions are told apart**, their texts being read up to the first character that is
neither a letter nor a digit. -/
theorem legible (left right : Instruction) :
    Legible text (Stops Char.isAlphanum) left right := by
  refine Legible.congr ?_ text_eq
  intro rest others ends othersEnd same
  rw [String.toList_append, String.toList_append, List.append_assoc, List.append_assoc] at same
  -- an instruction is its opcode and its operands, and the opcode is read first
  rw [← assemble_opcode_operands left, ← assemble_opcode_operands right]
  generalize left.operands = leftOperands at same ⊢
  generalize right.operands = rightOperands at same ⊢
  generalize left.opcode = opcode at leftOperands same ⊢
  generalize right.opcode = other at rightOperands same ⊢
  obtain ⟨rfl, below⟩ := opcode.legible other
    (Operands.stops_text opcode.opened opcode.closed leftOperands ends)
    (Operands.stops_text other.opened other.closed rightOperands othersEnd) same
  obtain ⟨rfl, after⟩ := Operands.legible opcode.opened opcode.closed opcode.length_openings
    leftOperands rightOperands ends othersEnd below
  exact ⟨rfl, after⟩

/-- The target of a jump is a part of its line that others do not have. -/
theorem listing_eq (instruction : Instruction) (position : Nat) :
    instruction.listing position = padNumber 4 position ++ "  " ++ instruction.text ++
      optionText "  ; -> " (padNumber 4) (instruction.jumpTarget? position) ++ "\n" := by
  unfold listing
  cases instruction.jumpTarget? position <;> rfl

/-- Lines of instructions. -/
theorem legible_listing (position : Nat) (left right : Instruction) :
    Legible (listing · position) (fun _ => True) left right := by
  -- the text of an instruction ends with its line, or with a blank
  have ends : ∀ (target : Option Nat) (rest : List Char), Stops Char.isAlphanum
      ((optionText "  ; -> " (padNumber 4) target).toList ++ ("\n".toList ++ rest)) := by
    intro target rest
    refine Stops.append ?_ (stops_text (by decide) _)
    cases target with
    | none => decide
    | some target =>
        show Stops _ ("  ; -> " ++ padNumber 4 target).toList
        rw [String.toList_append]
        exact stops_text (by decide) _
  refine Legible.congr ?_ fun instruction => listing_eq instruction position
  intro rest others _ _ same
  simp only [String.toList_append, List.append_assoc] at same
  obtain ⟨rfl, below⟩ := legible left right (ends _ rest) (ends _ others)
    (List.append_cancel_left (List.append_cancel_left same))
  exact ⟨rfl, List.append_cancel_left (List.append_cancel_left below)⟩

end Instruction

/-! ### Types, registers and procedures -/

/-- Names between brackets, which may be missing. -/
theorem legible_listedRefs {α : Type} {write : α → String} (label : String)
    (legible : ∀ item other, Legible write (Stops Char.isDigit) item other)
    (begins : ∀ item, ∃ c text, (write item).toList = c :: text ∧ c ≠ ']') (left right : Array α) :
    Legible (fun items : Array α => listedRefs label (items.toList.map write))
      (fun rest => ¬ ("  " ++ label ++ " [").toList <+: rest) left right := by
  let listed (items : Array α) : Option (List α) :=
    if items.toList.isEmpty then none else some items.toList
  have items := legible_items legible begins (stops_cons (by decide)) (stops_cons (by decide))
  have determines : listed left = listed right → left = right := by
    unfold listed
    rw [← Array.toList_inj]
    cases left.toList <;> cases right.toList <;> simp
  have option := legible_option ("  " ++ label ++ " [") items (listed left) (listed right)
  refine (option.of determines).congr fun items => ?_
  unfold listedRefs listed optionText itemsText
  cases items.toList with
  | nil => rfl
  | cons item items =>
      show "  " ++ label ++ " [" ++ _ ++ "]" = "  " ++ label ++ " [" ++ (_ ++ "]")
      rw [String.append_assoc]

/-- A number of elements, or a star. -/
theorem VarType.legible_count (left right : UInt32) :
    Legible (fun count : UInt32 => if (count == 0) = true then "*" else count.toNat.repr)
      (Stops Char.isDigit) left right := by
  have star : ∀ count : UInt32, ∀ rest others : List Char,
      count.toNat.repr.toList ++ rest ≠ "*".toList ++ others :=
    fun count rest others => repr_append_ne_cons (by decide) count.toNat rest others
  have number := (legible_natural left.toNat right.toNat).of UInt32.toNat_inj.mp
  intro rest others ends othersEnd same
  dsimp only at same
  split at same <;> split at same
  next zero other =>
    rw [beq_iff_eq.mp zero, beq_iff_eq.mp other]
    exact ⟨rfl, List.append_cancel_left same⟩
  next => exact absurd same.symm (star right others rest)
  next => exact absurd same (star left rest others)
  next => exact number ends othersEnd same

/-- Lines of variable types. -/
theorem VarType.legible_listing (index : Nat) (left right : VarType) :
    Legible (VarType.listing · index) (fun _ => True) left right := by
  have vref := legible_listedRefs "vref" VarTypeId.legible fun id =>
    ⟨'T', id.index.toNat.repr.toList, by rw [VarTypeId.text, String.toList_append]; rfl, by decide⟩
  have pref := legible_listedRefs "pref" ProcTypeId.legible fun id =>
    ⟨'P', id.index.toNat.repr.toList, by rw [ProcTypeId.text, String.toList_append]; rfl, by decide⟩
  -- native slots are not taken for owned ones, nor is the end of the line for either
  have noPref : ∀ rest : List Char,
      ¬ ("  " ++ "pref" ++ " [").toList <+: "\n".toList ++ rest :=
    not_prefix_append _ _ (by decide)
  have noVref : ∀ (names : List String) (rest : List Char), ¬ ("  " ++ "vref" ++ " [").toList <+:
      (listedRefs "pref" names).toList ++ ("\n".toList ++ rest) := by
    intro names rest
    unfold listedRefs
    split
    · exact not_prefix_append ("  " ++ "vref" ++ " [") "\n" (by decide) rest
    · have opened := not_prefix_append ("  " ++ "vref" ++ " [") ("  " ++ "pref" ++ " [")
        (by decide) ((String.intercalate ", " names ++ "]").toList ++ ("\n".toList ++ rest))
      simpa only [String.toList_append, List.append_assoc] using opened
  intro rest others _ _ same
  obtain ⟨leftCount, leftBytes, leftOwned, leftNative⟩ := left
  obtain ⟨rightCount, rightBytes, rightOwned, rightNative⟩ := right
  unfold listing isDynamic at same
  simp only [String.toList_append, List.append_assoc] at same
  replace same := List.append_cancel_left (List.append_cancel_left (List.append_cancel_left same))
  obtain ⟨rfl, bytes⟩ := (legible_count leftCount rightCount).followed (by decide) same
  obtain ⟨numbers, owned⟩ := (legible_natural _ _).followed (by decide) bytes
  obtain ⟨rfl, native⟩ := vref leftOwned rightOwned (noVref _ _) (noVref _ _) owned
  obtain ⟨rfl, after⟩ := pref leftNative rightNative (noPref _) (noPref _) native
  rw [UInt32.toNat_inj.mp numbers]
  exact ⟨rfl, List.append_cancel_left after⟩

/-- The two digits of a byte are read as the byte. -/
theorem hexNumber?_hexByte (byte : UInt8) :
    Text.hexNumber? (Text.hexByte byte).toList = some byte.toNat := by
  have range := byte.toNat_lt
  have high := Text.hexValue?_digitChar (byte.toNat / 16) (by omega)
  have low := Text.hexValue?_digitChar (byte.toNat % 16) (by omega)
  simp only [Text.hexByte, String.toList_ofList, Text.hexNumber?, List.isEmpty_cons,
    Bool.false_eq_true, if_false, List.foldlM_cons, List.foldlM_nil, high, low]
  show some (16 * (16 * 0 + byte.toNat / 16) + byte.toNat % 16) = _
  rw [Option.some.injEq]
  omega

/-- Bytes. -/
theorem legible_hexByte (left right : UInt8) :
    Legible Text.hexByte (fun _ => True) left right := by
  refine legible_of_length ?_ fun same => ?_
  · rw [Text.hexByte, Text.hexByte, String.toList_ofList, String.toList_ofList]
    rfl
  · have read := hexNumber?_hexByte left
    rw [same, hexNumber?_hexByte] at read
    exact (UInt8.toNat_inj.mp (Option.some.inj read)).symm

/-- Initial payloads, which may be missing. -/
theorem legible_listedInit (left right : Option (Array UInt8)) :
    Legible listedInit (fun rest => ¬ "  init=[".toList <+: rest) left right := by
  have noBracket : ∀ digit < 16, Nat.digitChar digit ≠ ']' := by decide
  have begins : ∀ byte, ∃ c text, (Text.hexByte byte).toList = c :: text ∧ c ≠ ']' := by
    intro byte
    have range := byte.toNat_lt
    exact ⟨_, _, by rw [Text.hexByte, String.toList_ofList], noBracket _ (by omega)⟩
  have items := legible_items legible_hexByte begins (fun _ => trivial) (fun _ => trivial)
  have arrays := fun value other : Array UInt8 =>
    (items value.toList other.toList).of Array.toList_inj.mp
  refine (legible_option "  init=[" arrays left right).congr fun init => ?_
  cases init with
  | none => rfl
  | some init => exact String.append_assoc

/-- Lines of registers whose flags have names. -/
theorem RegSpec.legible_listing (index : Nat) {left right : RegSpec}
    (knownLeft : left.flags.isKnown = true) (knownRight : right.flags.isKnown = true) :
    Legible (RegSpec.listing · index) (fun _ => True) left right := by
  -- the mark of the error register, or the end of the line
  have noInit : ∀ rest : List Char, ¬ "  init=[".toList <+:
      (if index = 0 then "  ; error" else "").toList ++ ("\n".toList ++ rest) := by
    intro rest
    split
    · exact not_prefix_append _ _ (by decide) _
    · exact not_prefix_append "  init=[" "\n" (by decide) rest
  have solid : ∀ (init : Option (Array UInt8)) (rest : List Char), Stops Text.isSolid
      ((listedInit init).toList ++
        ((if index = 0 then "  ; error" else "").toList ++ ("\n".toList ++ rest))) := by
    intro init rest
    refine Stops.append ?_ (Stops.append ?_ (stops_text (by decide) rest))
    · cases init with
      | none => decide
      | some init =>
          rw [listedInit, String.append_assoc, String.toList_append]
          exact stops_text (by decide) _
    · split <;> decide
  intro rest others _ _ same
  obtain ⟨leftType, leftCount, leftFlags, leftInit⟩ := left
  obtain ⟨rightType, rightCount, rightFlags, rightInit⟩ := right
  unfold listing at same
  simp only [String.toList_append, List.append_assoc] at same
  replace same := List.append_cancel_left (List.append_cancel_left (List.append_cancel_left same))
  obtain ⟨rfl, counts⟩ := (leftType.legible rightType).followed (by decide) same
  obtain ⟨numbers, flags⟩ := (legible_natural _ _).followed (by decide) counts
  obtain ⟨rfl, inits⟩ := Flags.legible knownLeft knownRight (solid _ _) (solid _ _) flags
  obtain ⟨rfl, after⟩ := legible_listedInit leftInit rightInit (noInit _) (noInit _) inits
  rw [UInt32.toNat_inj.mp numbers]
  exact ⟨rfl, List.append_cancel_left (List.append_cancel_left after)⟩

/-- Lines of procedure types whose flags have names. -/
theorem ProcType.legible_listing (index : Nat) {left right : ProcType}
    (knownLeft : left.flags.isKnown = true) (knownRight : right.flags.isKnown = true) :
    Legible (ProcType.listing · index) (fun _ => True) left right := by
  intro rest others _ _ same
  obtain ⟨leftFlags, leftIo⟩ := left
  obtain ⟨rightFlags, rightIo⟩ := right
  unfold listing at same
  simp only [String.toList_append, List.append_assoc] at same
  replace same := List.append_cancel_left (List.append_cancel_left (List.append_cancel_left same))
  obtain ⟨rfl, flags⟩ := (leftIo.legible rightIo).followed (by decide) same
  obtain ⟨rfl, after⟩ := (Flags.legible knownLeft knownRight).followed (by decide) flags
  exact ⟨rfl, after⟩

/-- Lines of instructions start with a digit. -/
theorem Instruction.exists_listing_eq_cons (instruction : Instruction) (position : Nat) :
    ∃ c text, (instruction.listing position).toList = c :: text ∧ c.isDigit = true := by
  obtain ⟨c, digits, starts, isDigit⟩ := exists_repr_eq_cons position
  unfold listing padNumber
  simp only [String.toList_append, List.append_assoc, String.toList_ofList, starts]
  -- the number may have zeros in front
  cases 4 - position.repr.length with
  | zero => exact ⟨c, _, rfl, isDigit⟩
  | succ zeros => exact ⟨'0', _, rfl, by decide⟩

/-- A procedure that fits a module is listed with its instructions. -/
theorem ProcDef.Fits.listing_eq {module : Module} {proc : ProcDef} {code : List Instruction}
    (fits : proc.Fits module code) (index : Nat) :
    proc.listing index = "\n--- F" ++ index.repr ++ " : " ++ proc.ptype.text ++ " "
      ++ proc.flags.listed ++ " (" ++ proc.instrCount.toNat.repr ++ " instructions, "
      ++ proc.code.size.repr ++ " bytes) ---\n" ++ rows Instruction.listing 0 code := by
  unfold ProcDef.listing
  rw [fits.decoded]
  rfl

/-- Procedures that fit a module, each read up to the first character of a line that is no digit. -/
theorem ProcDef.legible_listing (index : Nat) {left right : ProcDef}
    {leftModule rightModule : Module} {leftCode rightCode : List Instruction}
    (fitsLeft : left.Fits leftModule leftCode) (fitsRight : right.Fits rightModule rightCode) :
    Legible (ProcDef.listing · index) (Stops Char.isDigit) left right := by
  have table : Legible (rows Instruction.listing 0)
      (fun rest => True ∧ Stops Char.isDigit rest) leftCode rightCode :=
    legible_rows 0 (fun item _ other _ position => Instruction.legible_listing position item other)
      Instruction.exists_listing_eq_cons fun _ _ _ => trivial
  intro rest others ends othersEnd same
  have same : (left.listing index).toList ++ rest = (right.listing index).toList ++ others := same
  rw [fitsLeft.listing_eq, fitsRight.listing_eq] at same
  simp only [String.toList_append, List.append_assoc] at same
  replace same := List.append_cancel_left (List.append_cancel_left (List.append_cancel_left same))
  obtain ⟨types, flags⟩ := (left.ptype.legible right.ptype).followed (by decide) same
  obtain ⟨sets, counts⟩ :=
    (Flags.legible fitsLeft.known fitsRight.known).followed (by decide) flags
  obtain ⟨numbers, sizes⟩ := (legible_natural _ _).followed (by decide) counts
  obtain ⟨-, code⟩ := (legible_natural _ _).followed (by decide) sizes
  obtain ⟨instructions, after⟩ := table ⟨trivial, ends⟩ ⟨trivial, othersEnd⟩ code
  -- the bytes are what is written for the instructions
  have bytes : left.code = right.code := by
    rw [← Array.toList_inj, fitsLeft.encoded, fitsRight.encoded, instructions]
  refine ⟨?_, after⟩
  show ProcDef.mk left.flags left.ptype left.code left.instrCount = right
  rw [sets, types, bytes, UInt32.toNat_inj.mp numbers]

/-! ### Modules -/

/-- Tables of indented lines are told apart, up to a line that is not indented. -/
theorem legible_listedTable {α : Type} {line : α → Nat → String} {left right : Array α}
    (legible : ∀ entry ∈ left, ∀ other ∈ right, ∀ index,
      Legible (line · index) (fun _ => True) entry other)
    (indented : ∀ entry index, ∃ text, (line entry index).toList = ' ' :: text) :
    Legible (listedTable line) (Stops (· == ' ')) left right := by
  have begins : ∀ entry index, ∃ c text, (line entry index).toList = c :: text ∧
      (c == ' ') = true := by
    intro entry index
    obtain ⟨text, first⟩ := indented entry index
    exact ⟨' ', text, first, rfl⟩
  have lines := legible_rows 0 (fun entry member other others => legible entry
    (Array.mem_def.mpr member) other (Array.mem_def.mpr others)) begins fun _ _ _ => trivial
  exact (lines.of Array.toList_inj.mp).mono fun ends => ⟨trivial, ends⟩

/-- The table of variable types. -/
theorem VarType.legible_table (left right : Array VarType) :
    Legible (listedTable VarType.listing) (Stops (· == ' ')) left right := by
  refine legible_listedTable (fun type _ other _ index => legible_listing index type other) ?_
  intro type index
  unfold listing
  simp only [String.toList_append, List.append_assoc]
  exact ⟨_, rfl⟩

/-- The table of registers. -/
theorem RegSpec.legible_table {left right : Array RegSpec}
    (knownLeft : ∀ spec ∈ left, spec.flags.isKnown = true)
    (knownRight : ∀ spec ∈ right, spec.flags.isKnown = true) :
    Legible (listedTable RegSpec.listing) (Stops (· == ' ')) left right := by
  refine legible_listedTable (fun spec member other others index =>
    legible_listing index (knownLeft spec member) (knownRight other others)) ?_
  intro spec index
  unfold listing
  simp only [String.toList_append, List.append_assoc]
  exact ⟨_, rfl⟩

/-- The table of procedure types. -/
theorem ProcType.legible_table {left right : Array ProcType}
    (knownLeft : ∀ ptype ∈ left, ptype.flags.isKnown = true)
    (knownRight : ∀ ptype ∈ right, ptype.flags.isKnown = true) :
    Legible (listedTable ProcType.listing) (Stops (· == ' ')) left right := by
  refine legible_listedTable (fun ptype member other others index =>
    legible_listing index (knownLeft ptype member) (knownRight other others)) ?_
  intro ptype index
  unfold listing
  simp only [String.toList_append, List.append_assoc]
  exact ⟨_, rfl⟩

/-- An empty line stands in front of a procedure. -/
theorem ProcDef.exists_listing_eq_cons (proc : ProcDef) (index : Nat) :
    ∃ c text, (proc.listing index).toList = c :: text ∧ (c == '\n') = true := by
  unfold listing
  simp only [String.toList_append, List.append_assoc]
  exact ⟨'\n', _, rfl, rfl⟩

/-- Characters of a class that has no line break are not taken from an empty line. -/
theorem stops_break {inside : Char → Bool} (outside : inside '\n' = false) :
    ∀ c text, (c == '\n') = true → Stops inside (c :: text) := by
  intro c text isBreak
  rw [beq_iff_eq.mp isBreak]
  exact stops_cons outside text

/-- The procedures of modules. -/
theorem ProcDef.legible_procs {leftModule rightModule : Module}
    (wellFormed : leftModule.WellFormed) (otherWellFormed : rightModule.WellFormed) :
    Legible (listedTable ProcDef.listing)
      (fun rest => Stops Char.isDigit rest ∧ Stops (· == '\n') rest)
      leftModule.procs rightModule.procs := by
  have procs : ∀ proc ∈ leftModule.procs.toList, ∀ other ∈ rightModule.procs.toList,
      ∀ index, Legible (ProcDef.listing · index) (Stops Char.isDigit) proc other := by
    intro proc member other others index
    obtain ⟨code, fits⟩ := wellFormed.procs proc (Array.mem_def.mpr member)
    obtain ⟨otherCode, otherFits⟩ := otherWellFormed.procs other (Array.mem_def.mpr others)
    exact legible_listing index fits otherFits
  exact (legible_rows 0 procs exists_listing_eq_cons (stops_break (by decide))).of
    Array.toList_inj.mp

/-- **Listings of well-formed modules lose nothing.** -/
theorem Module.WellFormed.eq_of_listing {left right : Module} (wellFormed : left.WellFormed)
    (otherWellFormed : right.WellFormed) (same : left.listing = right.listing) : left = right := by
  have same := congrArg String.toList same
  unfold Module.listing at same
  simp only [String.toList_append, List.append_assoc] at same
  obtain ⟨ids, same⟩ := left.id.legible right.id trivial trivial (List.append_cancel_left same)
  replace same := List.append_cancel_left (List.append_cancel_left same)
  obtain ⟨vtypes, same⟩ :=
    (VarType.legible_table left.vtypes right.vtypes).followed (by decide) same
  obtain ⟨regs, same⟩ :=
    (RegSpec.legible_table (fun spec member => (wellFormed.regs spec member).known)
      fun spec member => (otherWellFormed.regs spec member).known).followed (by decide) same
  -- procedure types are followed by a procedure, or by the end
  have noPtype : ∀ procs, Stops (· == ' ') ((rows ProcDef.listing 0 procs).toList
      ++ "========================================\n".toList) := fun procs =>
    follows_rows ProcDef.exists_listing_eq_cons (stops_break (by decide)) procs 0 (by decide)
  obtain ⟨ptypes, same⟩ :=
    ProcType.legible_table (fun ptype member => (wellFormed.ptypes ptype member).known)
      (fun ptype member => (otherWellFormed.ptypes ptype member).known)
      (noPtype left.procs.toList) (noPtype right.procs.toList) same
  obtain ⟨procs, -⟩ := ProcDef.legible_procs wellFormed otherWellFormed
    ⟨by decide, by decide⟩ ⟨by decide, by decide⟩ same
  show Module.mk left.id left.vtypes left.ptypes left.regs left.procs = right
  rw [ids, vtypes, regs, ptypes, procs]

/-- A description that a reachable builder holds, or that one gave out. -/
inductive Module.Built : Module → Prop
  /-- A reachable builder holds it. -/
  | held {builder : Builder} (reached : builder.Reachable) : Built builder.module
  /-- A reachable builder finished it under an identity. -/
  | finished {builder rest : Builder} {id : ModuleId} {module : Module}
      (reached : builder.Reachable) (finished : Builder.finish id builder = .ok module rest) :
      Built module

/-- Such a description is well-formed. -/
theorem Module.Built.wellFormed {module : Module} (built : module.Built) : module.WellFormed := by
  cases built with
  | held reached => exact reached.wellFormed.module
  | finished reached finished =>
      obtain ⟨-, rfl, -⟩ := Builder.finish_eq_ok.mp finished
      exact reached.wellFormed.module.withId _

/-- **Listings lose nothing.** Of the descriptions that builders hold or give out, two have the same
listing only if they are the same: identity, types with their slots, registers with their counts,
flags and initial payloads, procedure types, and procedures with every instruction. No two
instructions have the same text. -/
theorem listing_lossless {left right : Module} (builtLeft : left.Built) (builtRight : right.Built) :
    (left.listing = right.listing ↔ left = right) ∧
      ∀ instruction other : Instruction, instruction.text = other.text → instruction = other := by
  refine ⟨⟨builtLeft.wellFormed.eq_of_listing builtRight.wellFormed, congrArg Module.listing⟩, ?_⟩
  intro instruction other same
  have stop : Stops Char.isAlphanum [] := by decide
  exact (instruction.legible other stop stop (by rw [same])).1

/-- What a builder holds is listed otherwise before the calls, after them, and when it is given out
under an identity. -/
theorem interleaved_listed_apart : ∃ module,
    Builder.finish ⟨1⟩ Samples.interleavedBuilder = .ok module Builder.initial ∧
      Samples.interleavedBuilder.module.listing ≠ Builder.initial.module.listing ∧
      module.listing ≠ Samples.interleavedBuilder.module.listing := by
  have reached : Samples.interleavedBuilder.Reachable := Builder.Reachable.initial.calls _
  have verified : verifyModule Samples.interleavedBuilder.module = .ok () :=
    toOption_eq_some.mp (by decide +kernel)
  have finished : Builder.finish ⟨1⟩ Samples.interleavedBuilder =
      .ok { Samples.interleavedBuilder.module with id := ⟨1⟩ } Builder.initial :=
    Builder.finish_eq_ok.mpr ⟨verified, rfl, rfl⟩
  refine ⟨_, finished, ?_, ?_⟩
  · intro same
    have equal := (listing_lossless (.held reached) (.held .initial)).1.mp same
    exact absurd equal (by decide +kernel)
  · intro same
    have equal := (listing_lossless (.finished reached finished) (.held reached)).1.mp same
    exact absurd (congrArg Module.id equal) (by decide +kernel)

end ScopeMachine
