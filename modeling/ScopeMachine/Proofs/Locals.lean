import Mathlib.Logic.Function.Basic
import ScopeMachine.Proofs.Routines

/-! # The locals of quicksort

An activation of `quicksort` works with seven words, an array of words and an argument that holds
two positions. Most of its instructions only change these, so they can be looked at without frames,
stores and bytes.

* `Locals` is what an activation works with, and `Locals.Step` says what each instruction does to
  it;
* `Setting.At` says that a machine runs an activation with given locals, and that it leaves all else
  as it was when the activation was entered;
* `Setting.At.step` says that the machine does what `Locals.Step` says, and `Setting.At.run` carries
  this along runs. -/

namespace ScopeMachine

open Machine

namespace Samples

/-! ### Registers and code -/

/-- The local words of `quicksort`. -/
inductive Local where
  /-- The first position to sort. -/
  | lo
  /-- The last position to sort. -/
  | hi
  /-- Where the next word below the pivot goes. -/
  | i
  /-- The position that the partition looks at. -/
  | j
  /-- The pivot. -/
  | piv
  /-- A word that is moved, or a position. -/
  | x
  /-- A word that is moved. -/
  | y
deriving DecidableEq

/-- The position of a local word among them. -/
def Local.index : Local → Nat
  | lo => 0
  | hi => 1
  | i => 2
  | j => 3
  | piv => 4
  | x => 5
  | y => 6

/-- There are seven local words. -/
theorem Local.index_lt (name : Local) : name.index < 7 := by cases name <;> decide

/-- Different local words have different positions. -/
theorem Local.index_inj {left right : Local} (same : left.index = right.index) : left = right := by
  cases left <;> cases right <;> first | rfl | cases same

/-- What the code of `quicksort` works on. -/
inductive Place where
  /-- The argument. -/
  | argument
  /-- The array. -/
  | array
  /-- A local word. -/
  | word (name : Local)
deriving DecidableEq

/-- The register for a local word. -/
def Local.reg (name : Local) : RegId :=
  ⟨name.index + 3, Nat.le_trans (Nat.add_le_add_right (Nat.le_of_lt name.index_lt) 3) (by decide)⟩

/-- There is a register for the argument. -/
theorem argsIndex_le : 1 ≤ RegId.maxIndex := by decide

/-- There is a register for the array. -/
theorem arrayIndex_le : 2 ≤ RegId.maxIndex := by decide

/-- The register for the argument. -/
def argsReg : RegId := ⟨1, argsIndex_le⟩

/-- The register for the array. -/
def arrayReg : RegId := ⟨2, arrayIndex_le⟩

/-- The register for what the code works on. -/
def Place.reg : Place → RegId
  | argument => argsReg
  | array => arrayReg
  | word name => name.reg

/-- The code of `quicksort`, over its registers. -/
def sortCode : List Instruction :=
  quicksortCode entry argsReg arrayReg Local.lo.reg Local.hi.reg Local.i.reg Local.j.reg
    Local.piv.reg Local.x.reg Local.y.reg

/-- The layout of the arrays. -/
def arrayLayout : Layout := ⟨arrayType, VarType.plain 0 8⟩

/-- The type of the arguments: two words, and a reference to the array. -/
def argsVarType : VarType := ⟨1, 16, #[arrayType], #[]⟩

/-- The layout of the arguments. -/
def argsLayout : Layout := ⟨argsType, argsVarType⟩

/-- The elements of an array are words. -/
theorem holdsWords_array : arrayLayout.HoldsWords := ⟨rfl, rfl, rfl⟩

/-- An argument has the bytes of two words. -/
theorem elementBytes_args : argsLayout.elementBytes = 16 := rfl

/-- The executable form of `quicksort`. -/
def sortProgram (id : ModuleId) (depth : Nat) : Program where
  module := id
  maxCallDepth := depth
  regs := #[wordSlot, ⟨argsLayout, 1, Flags.empty, none⟩,
    ⟨arrayLayout, 0, RegFlags.nonFixedRef, none⟩, wordSlot, wordSlot, wordSlot, wordSlot, wordSlot,
    wordSlot, wordSlot]
  procs := #[⟨Flags.empty, true, argsReg, sortCode.toArray⟩]

/-! ### Variables -/

/-- An array of words. -/
def arrayVar (words : List Int64) : Variable := Variable.ofWords arrayLayout words

/-- An argument with its first and its last position, and the array. -/
def argsVar (bounds : List Int64) (array : Option VarId) : Variable :=
  ⟨argsLayout, 1, bytesOf bounds, #[array], #[]⟩

/-- The bytes of an argument. -/
theorem bytes?_argsVar {bounds : List Int64} (two : bounds.length = 2) (array : Option VarId) :
    (argsVar bounds array).bytes? 0 = some (bytesOf bounds) := by
  have all : (bytesOf bounds).extract 0 16 = bytesOf bounds := by
    rw [show 16 = (bytesOf bounds).size by rw [size_bytesOf, two]]
    exact Array.extract_size
  exact congrArg some all

/-- Writing one of the positions in an argument. -/
theorem writeBytes_argsVar (bounds : List Int64) (array : Option VarId) (index : Nat)
    (word : Int64) :
    (argsVar bounds array).writeBytes 0 (index * 8) (wordToBytes word) =
      argsVar (bounds.set index word) array := by
  unfold Variable.writeBytes argsVar
  dsimp only
  rw [Nat.zero_mul, Nat.zero_add, overwrite_bytesOf]

/-! ### Locals -/

/-- What an activation of `quicksort` works with. -/
structure Locals where
  /-- The local words. -/
  word : Local → Int64
  /-- The words of the array. -/
  array : List Int64
  /-- The first and the last position in the argument. -/
  bounds : List Int64

namespace Locals

/-- Set a local word. -/
def set (locals : Locals) (name : Local) (word : Int64) : Locals :=
  { locals with word := Function.update locals.word name word }

/-- The variables that hold the locals, for an array with a given identity. -/
def var (locals : Locals) (array : VarId) : Place → Variable
  | .argument => argsVar locals.bounds (some array)
  | .array => arrayVar locals.array
  | .word name => wordVar (locals.word name)

/-- What an instruction at `pc` does to the locals, and where it leads. -/
inductive Step (locals : Locals) (pc : Nat) : Instruction → Locals → Nat → Prop
  /-- Add one to a word. -/
  | inc (name : Local) :
      Step locals pc (.inc name.reg) (locals.set name (locals.word name + 1)) (pc + 1)
  /-- Take one from a word. -/
  | dec (name : Local) :
      Step locals pc (.dec name.reg) (locals.set name (locals.word name - 1)) (pc + 1)
  /-- Copy a word. -/
  | copy (dst src : Local) :
      Step locals pc (.cpb dst.reg src.reg) (locals.set dst (locals.word src)) (pc + 1)
  /-- Go somewhere else. -/
  | jump {offset : Int32} {target : Nat}
      (leads : (Instruction.jmp offset).jumpTarget? pc = some target) :
      Step locals pc (.jmp offset) locals target
  /-- Go somewhere else, as one word is not above another. -/
  | jumpIf {left right : Local} {offset : Int32} {target : Nat}
      (holds : locals.word left ≤ locals.word right)
      (leads : (Instruction.jng left.reg right.reg offset).jumpTarget? pc = some target) :
      Step locals pc (.jng left.reg right.reg offset) locals target
  /-- Go on, as one word is above another. -/
  | pass {left right : Local} {offset : Int32} (fails : ¬ locals.word left ≤ locals.word right) :
      Step locals pc (.jng left.reg right.reg offset) locals (pc + 1)
  /-- Load a word of the array. -/
  | load (dst position : Local) {index : Nat} {word : Int64}
      (isIndex : (locals.word position).toInt = index)
      (found : locals.array[index]? = some word) :
      Step locals pc (.lde dst.reg arrayReg position.reg) (locals.set dst word) (pc + 1)
  /-- Store a word in the array. -/
  | store (position src : Local) {index : Nat} (isIndex : (locals.word position).toInt = index)
      (inside : index < locals.array.length) :
      Step locals pc (.ste arrayReg position.reg src.reg)
        { locals with array := locals.array.set index (locals.word src) } (pc + 1)
  /-- Load a position from the argument. -/
  | loadBound (dst : Local) (index : Nat) {offset : UInt32} {word : Int64}
      (isOffset : offset.toNat = index * 8) (found : locals.bounds[index]? = some word) :
      Step locals pc (.ldb dst.reg argsReg offset) (locals.set dst word) (pc + 1)
  /-- Store a position in the argument. -/
  | storeBound (src : Local) (index : Nat) {offset : UInt32} (isOffset : offset.toNat = index * 8)
      (inside : index < 2) :
      Step locals pc (.stb argsReg offset src.reg)
        { locals with bounds := locals.bounds.set index (locals.word src) } (pc + 1)

end Locals

/-! ### Activations -/

/-- What stays the same while an activation runs. -/
structure Setting where
  /-- The machine when the activation was entered. -/
  start : Machine
  /-- The activations below it. -/
  rest : List Activation
  /-- The array that it sorts. -/
  array : Nat

/-- The identity of what the code works on. -/
def Setting.id (setting : Setting) (argument : Nat) : Place → Nat
  | .argument => argument
  | .array => setting.array
  | .word name => setting.start.store.next + name.index

/-- A machine runs an activation that holds some locals. -/
structure Setting.At (setting : Setting) (argument : Nat) (scopes : Scopes) (pc : Nat)
    (locals : Locals) (machine : Machine) : Prop where
  /-- The activation is the innermost. -/
  calls : machine.calls.activations = ⟨entry, pc, scopes⟩ :: setting.rest
  /-- It stands on the frames that were there when it was entered. -/
  above : Above setting.start.registers machine.registers scopes
  /-- The registers name the variables. -/
  frames : ∀ place : Place, (machine.registers.framesOf place.reg).head? =
    some (some (setting.id argument place))
  /-- The variables hold the locals. -/
  vars : ∀ place : Place, machine.store.get? (setting.id argument place) =
    some (locals.var setting.array place)
  /-- There are two bounds. -/
  two : locals.bounds.length = 2
  /-- The array was there when the activation was entered. -/
  older : setting.array < setting.start.store.next
  /-- The argument is none of the local words. -/
  apart : argument < setting.start.store.next ∨ setting.start.store.next + 7 ≤ argument
  /-- All other variables that were there are as they were. -/
  kept : ∀ {id : Nat}, id < setting.start.store.next → id ≠ setting.array → id ≠ argument →
    machine.store.get? id = setting.start.store.get? id
  /-- Identities stay given out. -/
  next : setting.start.store.next + 7 ≤ machine.store.next

namespace Setting.At

variable {setting : Setting} {argument : Nat} {scopes : Scopes} {pc : Nat} {locals : Locals}
  {machine : Machine}

/-- The argument is not the array. -/
theorem argument_ne_array (here : setting.At argument scopes pc locals machine) :
    argument ≠ setting.array := by
  rintro rfl
  have isArgument := here.vars .argument
  have isArray := here.vars .array
  unfold Setting.id at isArgument isArray
  rw [isArgument] at isArray
  have layouts : argsLayout = arrayLayout := congrArg Variable.layout (Option.some.inj isArray)
  cases congrArg Layout.vtype layouts

/-- Different things have different identities. -/
theorem id_inj (here : setting.At argument scopes pc locals machine) {left right : Place}
    (same : setting.id argument left = setting.id argument right) : left = right := by
  have older := here.older
  have apart := here.apart
  have differs := here.argument_ne_array
  cases left with
  | argument =>
      cases right with
      | argument => rfl
      | array => exact absurd same differs
      | word name =>
          have isLocal := name.index_lt
          simp only [Setting.id] at same
          omega
  | array =>
      cases right with
      | argument => exact absurd same.symm differs
      | array => rfl
      | word name =>
          simp only [Setting.id] at same
          omega
  | word name =>
      have isLocal := name.index_lt
      cases right with
      | argument =>
          simp only [Setting.id] at same
          omega
      | array =>
          simp only [Setting.id] at same
          omega
      | word other =>
          simp only [Setting.id] at same
          rw [Local.index_inj (Nat.add_left_cancel same)]

/-- What a register names. -/
theorem named (here : setting.At argument scopes pc locals machine) (place : Place) :
    machine.named place.reg =
      .ok (setting.id argument place, locals.var setting.array place) := by
  obtain ⟨frames, top⟩ := List.head?_eq_some_iff.mp (here.frames place)
  rw [named_eq top, here.vars place]

/-- A change of one variable is a change of the locals. -/
theorem change (here : setting.At argument scopes pc locals machine) (place : Place)
    {changed : Locals} {change : Variable → Variable} (two : changed.bounds.length = 2)
    (here' : change (locals.var setting.array place) = changed.var setting.array place)
    (others : ∀ other, other ≠ place →
      changed.var setting.array other = locals.var setting.array other) :
    setting.At argument scopes pc changed
      (machine.withVar (setting.id argument place) change) where
  calls := here.calls
  above := here.above
  frames := here.frames
  vars := by
    intro other
    show Slots.get? (machine.store.modify _ change) _ = _
    rw [Slots.get?_modify]
    by_cases same : other = place
    · rw [if_pos (by rw [same]), same, here.vars place, Option.map_some, here']
    · rw [if_neg fun equal => same (here.id_inj equal), here.vars other, others other same]
  two := two
  older := here.older
  apart := here.apart
  kept := by
    intro id old notArray notArgument
    show Slots.get? (machine.store.modify _ change) _ = _
    rw [Slots.get?_modify, if_neg, here.kept old notArray notArgument]
    cases place with
    | argument => exact notArgument
    | array => exact notArray
    | word name =>
        simp only [Setting.id]
        omega
  next := by
    show _ ≤ Slots.next (machine.store.modify _ change)
    rw [Slots.next_modify]
    exact here.next

/-- A change of a local word. -/
theorem setWord (here : setting.At argument scopes pc locals machine) (name : Local)
    {change : Variable → Variable} {word : Int64}
    (sets : change (wordVar (locals.word name)) = wordVar word) :
    setting.At argument scopes pc (locals.set name word)
      (machine.withVar (setting.id argument (.word name)) change) := by
  refine here.change (.word name) here.two ?_ ?_
  · show change (wordVar (locals.word name)) = wordVar (Function.update locals.word name word name)
    rw [sets, Function.update_self]
  · intro other differs
    cases other with
    | argument => rfl
    | array => rfl
    | word other =>
        have notSame : other ≠ name := fun same => differs (congrArg Place.word same)
        show wordVar (Function.update locals.word name word other) = wordVar (locals.word other)
        rw [Function.update_of_ne notSame]

/-- A change of the array. -/
theorem setArray (here : setting.At argument scopes pc locals machine)
    {change : Variable → Variable} {words : List Int64}
    (sets : change (arrayVar locals.array) = arrayVar words) :
    setting.At argument scopes pc { locals with array := words }
      (machine.withVar (setting.id argument .array) change) := by
  refine here.change .array here.two sets ?_
  intro other differs
  cases other with
  | array => exact absurd rfl differs
  | argument | word => rfl

/-- A change of the positions in the argument. -/
theorem setBounds (here : setting.At argument scopes pc locals machine)
    {change : Variable → Variable} {bounds : List Int64} (two : bounds.length = 2)
    (sets : change (argsVar locals.bounds (some setting.array)) =
      argsVar bounds (some setting.array)) :
    setting.At argument scopes pc { locals with bounds := bounds }
      (machine.withVar (setting.id argument .argument) change) := by
  refine here.change .argument two sets ?_
  intro other differs
  cases other with
  | argument => exact absurd rfl differs
  | array | word => rfl

/-- Control moves on. -/
theorem moved (here : setting.At argument scopes pc locals machine) {after : Machine}
    (same : SameData machine after) {target : Nat}
    (calls : after.calls.activations = ⟨entry, target, scopes⟩ :: setting.rest) :
    setting.At argument scopes target locals after where
  calls := calls
  above := same.registers ▸ here.above
  frames := same.registers ▸ here.frames
  vars := same.store ▸ here.vars
  two := here.two
  older := here.older
  apart := here.apart
  kept := same.store ▸ here.kept
  next := same.store ▸ here.next

end Setting.At

/-! ### Steps -/

section
variable {machine after : Machine} {pc : Nat} {scopes : Scopes} {rest : List Activation}
  {instruction : Instruction}

/-- The current instruction of `quicksort`. -/
theorem current_eq {id : ModuleId} {depth : Nat}
    (calls : machine.calls.activations = ⟨entry, pc, scopes⟩ :: rest)
    (fetched : sortCode[pc]? = some instruction) :
    current (sortProgram id depth) machine = .ok (instruction, pc) := by
  have isCode : (sortProgram id depth).proc entry =
      .ok ⟨Flags.empty, true, argsReg, sortCode.toArray⟩ := rfl
  exact current_eq_fetched isCode calls (List.getElem?_toArray.trans fetched)

/-- A step that stays within `quicksort`. -/
theorem exists_step (id : ModuleId) (depth : Nat) {opened : Scopes} {outcome : Outcome}
    {target : Nat}
    (calls : machine.calls.activations = ⟨entry, pc, scopes⟩ :: rest)
    (fetched : sortCode[pc]? = some instruction)
    (executed : execute (sortProgram id depth) instruction pc machine = .ok outcome after)
    (callsAfter : after.calls.activations = ⟨entry, pc, opened⟩ :: rest)
    (goes : target? pc outcome = some target) :
    ∃ moved, step (sortProgram id depth) machine = .ok false moved ∧ SameData after moved ∧
      moved.calls.activations = ⟨entry, target, opened⟩ :: rest :=
  exists_step_within (current_eq calls fetched) executed callsAfter goes

end

section
variable {setting : Setting} {argument pc target : Nat} {scopes : Scopes} {locals changed : Locals}
  {machine : Machine} {instruction : Instruction}

/-- Reading a local word. -/
theorem Setting.At.readWord (here : setting.At argument scopes pc locals machine) (name : Local) :
    Machine.readWord name.reg machine = .ok (locals.word name) machine :=
  readWord_apply (here.named (.word name)) (Variable.word?_ofWords holdsWords_word rfl)

/-- Writing a local word. -/
theorem Setting.At.writeWord (here : setting.At argument scopes pc locals machine) (name : Local)
    (word : Int64) :
    ∃ after, Machine.writeWord name.reg word machine = .ok () after ∧
      setting.At argument scopes pc (locals.set name word) after := by
  refine ⟨_, writeWord_apply (here.named (.word name))
    (Variable.hasWord_ofWords holdsWords_word Nat.one_pos) word, here.setWord name ?_⟩
  exact Variable.putWord_ofWords holdsWords_word _ _ _

/-- Copying a local word. -/
theorem Setting.At.copyBytes (here : setting.At argument scopes pc locals machine)
    (dst src : Local) :
    ∃ after, Machine.copyBytes dst.reg src.reg machine = .ok () after ∧
      setting.At argument scopes pc (locals.set dst (locals.word src)) after :=
  ⟨_, copyBytes_apply (here.named (.word dst)) (here.named (.word src)),
    here.setWord dst (Variable.copyPayload_ofWords wordLayout rfl)⟩

/-- Storing an element in a local word. -/
theorem Setting.At.putWord (here : setting.At argument scopes pc locals machine)
    (name : Local) (word : Int64) :
    ∃ after, Machine.storeElementAt name.reg 0 (Element.ofWord word) machine = .ok () after ∧
      setting.At argument scopes pc (locals.set name word) after :=
  ⟨_, storeElementAt_apply (here.named (.word name))
      (Variable.fits_ofWords holdsWords_word Nat.one_pos word),
    here.setWord name (Variable.putElement_ofWords holdsWords_word [locals.word name] 0 word)⟩

/-- Storing an element in the array. -/
theorem Setting.At.putElement (here : setting.At argument scopes pc locals machine) {index : Nat}
    (inside : index < locals.array.length) (word : Int64) :
    ∃ after, Machine.storeElementAt arrayReg index (Element.ofWord word) machine = .ok () after ∧
      setting.At argument scopes pc { locals with array := locals.array.set index word } after :=
  ⟨_, storeElementAt_apply (here.named .array)
      (Variable.fits_ofWords holdsWords_array inside word),
    here.setArray (Variable.putElement_ofWords holdsWords_array locals.array index word)⟩

/-- Loading a bound. -/
theorem Setting.At.loadBytes (here : setting.At argument scopes pc locals machine) (dst : Local)
    {index : Nat} {word : Int64} (found : locals.bounds[index]? = some word) :
    ∃ after, Machine.loadBytes dst.reg argsReg (index * 8) machine = .ok () after ∧
      setting.At argument scopes pc (locals.set dst word) after := by
  have inside : index * 8 + 8 ≤ (bytesOf locals.bounds).size := by
    have := (List.getElem?_eq_some_iff.mp found).1
    rw [size_bytesOf]
    omega
  refine ⟨_, loadBytes_apply (here.named (.word dst)) (here.named .argument)
    (bytes?_argsVar here.two _) holdsWords_word.bytes inside rfl, here.setWord dst ?_⟩
  rw [extract_bytesOf found]
  exact Variable.putWord_ofWords holdsWords_word [locals.word dst] 0 word

/-- Storing a bound. -/
theorem Setting.At.storeBytes (here : setting.At argument scopes pc locals machine) (src : Local)
    {index : Nat} (inside : index < 2) :
    ∃ after, Machine.storeBytes argsReg (index * 8) src.reg machine = .ok () after ∧
      setting.At argument scopes pc
        { locals with bounds := locals.bounds.set index (locals.word src) } after :=
  ⟨_, storeBytes_apply (here.named .argument) (here.named (.word src)) (bytes?_wordVar _)
      elementBytes_args (by rw [size_wordToBytes]; omega) rfl,
    here.setBounds (List.length_set.trans here.two)
      (writeBytes_argsVar locals.bounds _ index (locals.word src))⟩

/-- Comparing local words. -/
theorem Setting.At.compareWords (here : setting.At argument scopes pc locals machine)
    (test : Int64 → Int64 → Bool) (left right : Local) :
    Machine.compareWords test left.reg right.reg machine =
      .ok (test (locals.word left) (locals.word right)) machine := by
  unfold Machine.compareWords
  rw [bind_apply, here.readWord left]
  dsimp only
  rw [bind_apply, here.readWord right]
  rfl

/-- What follows the reading of a local word. -/
theorem Setting.At.readWord_bind (here : setting.At argument scopes pc locals machine)
    {α : Type} (name : Local) (next : Int64 → Exec α) :
    (Machine.readWord name.reg >>= next) machine = next (locals.word name) machine := by
  rw [bind_apply, here.readWord name]

/-- Each instruction does to the machine what it does to the locals. -/
theorem Setting.At.execute (here : setting.At argument scopes pc locals machine)
    (program : Program) (steps : locals.Step pc instruction changed target) :
    ∃ outcome after, Machine.execute program instruction pc machine = .ok outcome after ∧
      target? pc outcome = some target ∧ setting.At argument scopes pc changed after := by
  cases steps with
  | inc name =>
      obtain ⟨after, written, there⟩ := here.writeWord name (locals.word name + 1)
      exact ⟨.next, after, (here.readWord_bind name _).trans (bind_next written), rfl, there⟩
  | dec name =>
      obtain ⟨after, written, there⟩ := here.writeWord name (locals.word name - 1)
      exact ⟨.next, after, (here.readWord_bind name _).trans (bind_next written), rfl, there⟩
  | copy dst src =>
      obtain ⟨after, copied, there⟩ := here.copyBytes dst src
      exact ⟨.next, after, bind_next copied, rfl, there⟩
  | jump leads => exact ⟨.jump target, machine, jumpWhen_taken leads machine, rfl, here⟩
  | @jumpIf left right offset _ holds leads =>
      refine ⟨.jump target, machine, ?_, rfl, here⟩
      show (Machine.compareWords _ left.reg right.reg >>= _ : Exec Outcome) machine = _
      rw [bind_apply, here.compareWords, decide_eq_true holds]
      exact jumpWhen_taken leads machine
  | @pass left right offset fails =>
      refine ⟨.next, machine, ?_, rfl, here⟩
      show (Machine.compareWords _ left.reg right.reg >>= _ : Exec Outcome) machine = _
      rw [bind_apply, here.compareWords, decide_eq_false fails]
      rfl
  | @load dst position index word isIndex found =>
      have copied := elementAt_eq (here.named .array)
        (Variable.element?_ofWords holdsWords_array found)
      obtain ⟨after, stored, there⟩ := here.putWord dst word
      refine ⟨.next, after, (here.readWord_bind position _).trans ?_, rfl, there⟩
      rw [isIndex]
      exact (inspect_bind_eq _ copied _).trans (bind_next stored)
  | @store position src index isIndex inside =>
      have copied := elementAt_eq (here.named (.word src)) (element?_wordVar _)
      obtain ⟨after, stored, there⟩ := here.putElement inside (locals.word src)
      refine ⟨.next, after, (here.readWord_bind position _).trans ?_, rfl, there⟩
      rw [isIndex]
      exact (inspect_bind_eq _ copied _).trans (bind_next stored)
  | loadBound dst index isOffset found =>
      obtain ⟨after, loaded, there⟩ := here.loadBytes dst found
      rw [← isOffset] at loaded
      exact ⟨.next, after, bind_next loaded, rfl, there⟩
  | storeBound src index isOffset inside =>
      obtain ⟨after, stored, there⟩ := here.storeBytes src inside
      rw [← isOffset] at stored
      exact ⟨.next, after, bind_next stored, rfl, there⟩

/-- **A step on the locals is a step of the machine.** -/
theorem Setting.At.step (here : setting.At argument scopes pc locals machine) {id : ModuleId}
    {depth : Nat} (fetched : sortCode[pc]? = some instruction)
    (steps : locals.Step pc instruction changed target) :
    ∃ after, Machine.step (sortProgram id depth) machine = .ok false after ∧
      setting.At argument scopes target changed after := by
  obtain ⟨outcome, middle, executed, goes, there⟩ := here.execute (sortProgram id depth) steps
  obtain ⟨after, stepped, same, calls⟩ :=
    exists_step id depth here.calls fetched executed there.calls goes
  exact ⟨after, stepped, there.moved same calls⟩

end

/-! ### Runs -/

/-- One step within the code of `quicksort`. -/
def Goes (before after : Nat × Locals) : Prop :=
  ∃ instruction, sortCode[before.1]? = some instruction ∧
    before.2.Step before.1 instruction after.2 after.1

/-- Any number of steps within the code of `quicksort`. -/
abbrev Walks : Nat × Locals → Nat × Locals → Prop := Relation.ReflTransGen Goes

/-- A first step, and then any number of steps. -/
theorem Walks.first {pc target : Nat} {locals changed : Locals} {last : Nat × Locals}
    {instruction : Instruction} (steps : locals.Step pc instruction changed target)
    (fetched : sortCode[pc]? = some instruction) (walks : Walks (target, changed) last) :
    Walks (pc, locals) last :=
  .head ⟨instruction, fetched, steps⟩ walks

/-- **A walk of the locals is a run of the machine.** -/
theorem Setting.At.run {setting : Setting} {argument pc target : Nat} {scopes : Scopes}
    {locals changed : Locals} {machine : Machine}
    (here : setting.At argument scopes pc locals machine)
    (walks : Walks (pc, locals) (target, changed)) (id : ModuleId) (depth : Nat) :
    ∃ after, Runs (sortProgram id depth) machine after ∧
      setting.At argument scopes target changed after := by
  let holds (stop : Nat × Locals) (machine : Machine) : Prop :=
    setting.At argument scopes stop.1 stop.2 machine
  refine exists_runs holds ?_ here walks
  rintro before after machine there ⟨instruction, fetched, steps⟩
  exact Setting.At.step there fetched steps

end Samples

end ScopeMachine
