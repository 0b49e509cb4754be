import ScopeMachine.Proofs.Building
import ScopeMachine.Proofs.Codec

/-! # Well-formed modules

The tables of a module refer to each other, and its code to all of them. While a module is built
every reference leads to a declaration, and every instruction keeps passing the check that it passed
when it was appended, although the module goes on growing.

* `Module.Grows` says that declarations stay; `Module.checkOperands_of_grows` that checked
  instructions stay checked, provided that the types keep their slots;
* `Module.WellFormed` and `Builder.WellFormed` are the invariant;
* `Builder.Reachable.wellFormed` says that every reachable builder has it. -/

namespace ScopeMachine

/-! ### Tables -/

section
variable {α : Type} {table : Array α} {entry other : α}

/-- An entry of a table stays where it is when another is added. -/
theorem getElem?_push_of_some {index : Nat} (found : table[index]? = some entry) (other : α) :
    (table.push other)[index]? = some entry := by
  have inside := (Array.getElem?_eq_some_iff.mp found).1
  rw [Array.getElem?_push, if_neg (Nat.ne_of_lt inside), found]

/-- The entries of a table of which one has been changed. -/
theorem mem_of_mem_modify {target : Nat} {change : α → α}
    (member : entry ∈ table.modify target change) :
    entry ∈ table ∨ ∃ old, table[target]? = some old ∧ entry = change old := by
  obtain ⟨index, found⟩ := Array.mem_iff_getElem?.mp member
  rw [Array.getElem?_modify] at found
  by_cases same : target = index
  · rw [if_pos same, ← same] at found
    obtain ⟨old, foundOld, isChanged⟩ := Option.map_eq_some_iff.mp found
    exact .inr ⟨old, foundOld, isChanged.symm⟩
  · rw [if_neg same] at found
    exact .inl (Array.mem_of_getElem? found)

end

/-! ### Growing modules -/

/-- Every declaration of a module stays: types keep the sizes of their elements, procedures their
type, and everything else is the same. -/
structure Module.Grows (old new : Module) : Prop where
  /-- Variable types stay, perhaps with more slots. -/
  vtype : ∀ {id : VarTypeId} {type : VarType}, old.vtype? id = some type →
    ∃ grown, new.vtype? id = some grown ∧ grown.elementCount = type.elementCount ∧
      grown.elementBytes = type.elementBytes
  /-- Registers stay. -/
  reg : ∀ {id : RegId} {spec : RegSpec}, old.reg? id = some spec → new.reg? id = some spec
  /-- Procedure types stay. -/
  ptype : ∀ {id : ProcTypeId} {ptype : ProcType}, old.ptype? id = some ptype →
    new.ptype? id = some ptype
  /-- Procedures stay, perhaps with more instructions. -/
  proc : ∀ {id : ProcId} {proc : ProcDef}, old.proc? id = some proc →
    ∃ grown, new.proc? id = some grown ∧ grown.ptype = proc.ptype

/-- The variable types of a module stay as they are. -/
def Module.KeepsTypes (old new : Module) : Prop :=
  ∀ (id : VarTypeId) (type : VarType), old.vtype? id = some type → new.vtype? id = some type

/-- A success stays the same success. -/
def Persists {α : Type} (old new : Except Error α) : Prop :=
  ∀ value : α, old = .ok value → new = .ok value

section
variable {α β : Type}

/-- What does not change persists. -/
theorem Persists.refl (result : Except Error α) : Persists result result :=
  fun _ same => same

/-- One result after the other. -/
theorem Persists.bind {old new : Except Error α} {oldNext newNext : α → Except Error β}
    (first : Persists old new) (second : ∀ value, Persists (oldNext value) (newNext value)) :
    Persists (old >>= oldNext) (new >>= newNext) := by
  intro value succeeded
  obtain ⟨middle, isMiddle, succeeded⟩ := bind_eq_ok.mp succeeded
  exact bind_eq_ok.mpr ⟨middle, first middle isMiddle, second middle value succeeded⟩

/-- A declaration that stays is found again. -/
theorem persists_orError {error : Error} {old new : Option α}
    (stays : ∀ value, old = some value → new = some value) :
    Persists (orError error old) (orError error new) := by
  intro value found
  exact orError_eq_ok.mpr (stays value (orError_eq_ok.mp found))

end

namespace Module

variable {old new : Module}

/-- Registers keep their declaration and their type. -/
theorem persists_declaredReg (grows : Grows old new) (types : KeepsTypes old new) (reg : RegId) :
    Persists (old.declaredReg reg) (new.declaredReg reg) := by
  unfold declaredReg
  refine .bind (persists_orError fun _ => grows.reg) fun spec => ?_
  exact .bind (persists_orError (types _)) fun type => .refl _

/-- Registers keep holding a word. -/
theorem persists_checkWordReg (grows : Grows old new) (types : KeepsTypes old new) (reg : RegId) :
    Persists (old.checkWordReg reg) (new.checkWordReg reg) :=
  .bind (persists_declaredReg grows types reg) fun _ => .refl _

/-- Registers keep the width of their elements. -/
theorem persists_checkRegWidth (grows : Grows old new) (types : KeepsTypes old new) (reg : RegId)
    (needed : Nat) : Persists (old.checkRegWidth reg needed) (new.checkRegWidth reg needed) :=
  .bind (persists_declaredReg grows types reg) fun _ => .refl _

/-- Procedures stay callable. -/
theorem persists_checkCallee (grows : Grows old new) (proc : ProcId) :
    Persists (old.checkCallee proc) (new.checkCallee proc) := by
  intro value checked
  unfold checkCallee at checked ⊢
  obtain ⟨declared, found, checked⟩ := bind_eq_ok.mp checked
  obtain ⟨type, foundType, checked⟩ := bind_eq_ok.mp checked
  -- the procedure may have more instructions by now, so `Persists.bind` does not apply
  obtain ⟨grown, foundGrown, samePtype⟩ := grows.proc (orError_eq_ok.mp found)
  refine bind_eq_ok.mpr ⟨grown, orError_eq_ok.mpr foundGrown, ?_⟩
  rw [samePtype]
  exact bind_eq_ok.mpr
    ⟨type, orError_eq_ok.mpr (grows.ptype (orError_eq_ok.mp foundType)), checked⟩

/-- **Checked instructions stay checked** while the module grows, as long as types keep their
slots. -/
theorem checkOperands_of_grows (grows : Grows old new) (types : KeepsTypes old new)
    (instruction : Instruction) :
    Persists (old.checkOperands instruction) (new.checkOperands instruction) := by
  have word := persists_checkWordReg grows types
  have width := persists_checkRegWidth grows types
  have declared := persists_declaredReg grows types
  unfold checkOperands
  -- each check asks for registers in turn, and then decides on what was found alone
  cases instruction with
  | inc | dec | jz | jnz | jgz | jngz => exact word _
  | add | sub | mul => exact .bind (word _) fun _ => .bind (word _) fun _ => word _
  | cpi1 | cpi2 | cpi4 | cpi8 => exact width _ _
  | jg | jng | je => exact .bind (word _) fun _ => word _
  | jmp | throw | ret | frsl | popl => exact .refl _
  | als | push | frs | pop | pushh | alsr | pushr => exact .bind (declared _) fun _ => .refl _
  | cpb => exact .bind (width _ _) fun _ => width _ _
  | lde | ste =>
      refine .bind (declared _) fun _ => .bind (declared _) fun _ => ?_
      exact .bind (.refl _) fun _ => word _
  | ldb | stb | str => exact .bind (declared _) fun _ => .bind (declared _) fun _ => .refl _
  | ldr =>
      refine .bind (declared _) fun _ => .bind (.refl _) fun _ => ?_
      exact .bind (declared _) fun _ => .refl _
  | call proc => exact persists_checkCallee grows proc

end Module

/-! ### The invariant -/

/-- A variable type whose slots refer to declared types. -/
structure VarType.Fits (module : Module) (type : VarType) : Prop where
  /-- The types of the owned slots are declared. -/
  owned : ∀ target ∈ type.ownedRefs, (module.vtype? target).isSome = true
  /-- The types of the native slots are declared. -/
  native : ∀ ptype ∈ type.nativeRefs, (module.ptype? ptype).isSome = true

/-- A procedure whose instructions are `code`, each of which passes the check. -/
structure ProcDef.Fits (module : Module) (proc : ProcDef) (code : List Instruction) : Prop where
  /-- Every flag has a name. -/
  known : proc.flags.isKnown = true
  /-- Its type is declared. -/
  declared : (module.ptype? proc.ptype).isSome = true
  /-- Its bytes are the written form of the instructions. -/
  encoded : proc.code.toList = Instruction.encodeAll code
  /-- It counts the instructions. -/
  counted : proc.instrCount.toNat = code.length
  /-- The instructions pass the check. -/
  checked : ∀ instruction ∈ code, module.checkOperands instruction = .ok ()

/-- What holds of a module while it is built. -/
structure Module.WellFormed (module : Module) : Prop where
  /-- The first type is that of words. -/
  word : module.vtypes[0]? = some VarType.word
  /-- The first register is the error register. -/
  error : module.regs[0]? = some RegSpec.error
  /-- There are no more registers than register identifiers. -/
  named : module.regs.size ≤ RegId.maxIndex + 1
  /-- Every variable type fits. -/
  vtypes : ∀ type ∈ module.vtypes, type.Fits module
  /-- Every register fits. -/
  regs : ∀ spec ∈ module.regs, spec.Fits module
  /-- Every procedure type fits. -/
  ptypes : ∀ ptype ∈ module.ptypes, ptype.Fits module
  /-- Every procedure fits. -/
  procs : ∀ proc ∈ module.procs, ∃ code, proc.Fits module code

/-- What holds of a builder: its module is well-formed, and there is one tracker for each procedure,
which counts the same instructions. -/
structure Builder.WellFormed (builder : Builder) : Prop where
  /-- The module is well-formed. -/
  module : builder.module.WellFormed
  /-- There is one tracker for each procedure. -/
  size : builder.trackers.size = builder.module.procs.size
  /-- Tracker and procedure count the same instructions. -/
  counts : ∀ {index : Nat} {tracker : Tracker} {proc : ProcDef},
    builder.trackers[index]? = some tracker → builder.module.procs[index]? = some proc →
    tracker.size = proc.instrCount.toNat

/-! ### Declarations that stay -/

section
variable {old new : Module}

/-- Declared variable types stay declared. -/
theorem Module.Grows.isSome_vtype (grows : Module.Grows old new) {id : VarTypeId}
    (declared : (old.vtype? id).isSome = true) : (new.vtype? id).isSome = true := by
  obtain ⟨type, found⟩ := Option.isSome_iff_exists.mp declared
  obtain ⟨grown, foundGrown, -⟩ := grows.vtype found
  rw [foundGrown]
  rfl

/-- Declared procedure types stay declared. -/
theorem Module.Grows.isSome_ptype (grows : Module.Grows old new) {id : ProcTypeId}
    (declared : (old.ptype? id).isSome = true) : (new.ptype? id).isSome = true := by
  obtain ⟨type, found⟩ := Option.isSome_iff_exists.mp declared
  rw [grows.ptype found]
  rfl

/-- Variable types keep fitting. -/
theorem VarType.Fits.mono {type : VarType} (fits : type.Fits old) (grows : Module.Grows old new) :
    type.Fits new where
  owned := fun target member => grows.isSome_vtype (fits.owned target member)
  native := fun ptype member => grows.isSome_ptype (fits.native ptype member)

/-- Registers keep fitting. -/
theorem RegSpec.Fits.mono {spec : RegSpec} (fits : spec.Fits old) (grows : Module.Grows old new) :
    spec.Fits new := by
  obtain ⟨type, found, count, small, init⟩ := fits.type
  obtain ⟨grown, foundGrown, sameCount, sameBytes⟩ := grows.vtype found
  have sameSort : grown.isDynamic = type.isDynamic := by
    unfold VarType.isDynamic
    rw [sameCount]
  refine ⟨fits.known, fits.exclusive, grown, foundGrown, ?_⟩
  rw [sameSort, sameCount, sameBytes]
  exact ⟨count, small, init⟩

/-- Procedure types keep fitting. -/
theorem ProcType.Fits.mono {ptype : ProcType} (fits : ptype.Fits old)
    (grows : Module.Grows old new) : ptype.Fits new := by
  obtain ⟨spec, found, notStatic⟩ := fits.io
  exact ⟨fits.known, fits.callable, fits.unreserved, spec, grows.reg found, notStatic⟩

/-- Procedures keep fitting if types keep their slots, or if there is no instruction yet. -/
theorem ProcDef.Fits.mono {proc : ProcDef} {code : List Instruction} (fits : proc.Fits old code)
    (grows : Module.Grows old new)
    (frozen : Module.KeepsTypes old new ∨ proc.instrCount.toNat = 0) : proc.Fits new code where
  known := fits.known
  declared := grows.isSome_ptype fits.declared
  encoded := fits.encoded
  counted := fits.counted
  checked := by
    intro instruction member
    rcases frozen with types | empty
    · exact Module.checkOperands_of_grows grows types instruction () (fits.checked _ member)
    · -- types get slots only while there is nothing that was checked against them
      have none : code = [] := by
        rw [← List.length_eq_zero_iff, ← fits.counted]
        exact empty
      rw [none] at member
      cases member

/-- A module with other tables is well-formed if all old declarations stay, and the new ones fit. -/
theorem Module.WellFormed.mono (wellFormed : old.WellFormed) (grows : Module.Grows old new)
    (word : new.vtypes[0]? = some VarType.word) (named : new.regs.size ≤ RegId.maxIndex + 1)
    (vtypes : ∀ type ∈ new.vtypes, type ∈ old.vtypes ∨ type.Fits new)
    (regs : ∀ spec ∈ new.regs, spec ∈ old.regs ∨ spec.Fits new)
    (ptypes : ∀ ptype ∈ new.ptypes, ptype ∈ old.ptypes ∨ ptype.Fits new)
    (procs : ∀ proc ∈ new.procs,
      proc ∈ old.procs ∧ (Module.KeepsTypes old new ∨ proc.instrCount.toNat = 0) ∨
        ∃ code, proc.Fits new code) : new.WellFormed where
  word := word
  error := (grows.reg (show old.reg? RegId.error = _ from wellFormed.error) :)
  named := named
  vtypes := by
    intro type member
    rcases vtypes type member with before | fits
    · exact (wellFormed.vtypes type before).mono grows
    · exact fits
  regs := by
    intro spec member
    rcases regs spec member with before | fits
    · exact (wellFormed.regs spec before).mono grows
    · exact fits
  ptypes := by
    intro ptype member
    rcases ptypes ptype member with before | fits
    · exact (wellFormed.ptypes ptype before).mono grows
    · exact fits
  procs := by
    intro proc member
    rcases procs proc member with ⟨before, frozen⟩ | fits
    · obtain ⟨code, fits⟩ := wellFormed.procs proc before
      exact ⟨code, fits.mono grows frozen⟩
    · exact fits

end

/-- The identity of a module makes no difference to its well-formedness. -/
theorem Module.WellFormed.withId {module : Module} (wellFormed : module.WellFormed)
    (id : ModuleId) : WellFormed { module with id } :=
  wellFormed.mono
    ⟨fun found => ⟨_, found, rfl, rfl⟩, fun found => found, fun found => found,
      fun found => ⟨_, found, rfl⟩⟩
    wellFormed.word wellFormed.named (fun _ => .inl) (fun _ => .inl) (fun _ => .inl)
    fun _ member => .inl ⟨member, .inl fun _ _ found => found⟩

/-- A procedure decodes to the instructions that were appended to it. -/
theorem ProcDef.Fits.decoded {module : Module} {proc : ProcDef} {code : List Instruction}
    (fits : proc.Fits module code) : proc.instructions = .ok code.toArray := by
  unfold ProcDef.instructions
  rw [fits.encoded, Instruction.decodeAll_encodeAll]

/-! ### How modules grow -/

namespace Module

variable {module : Module}

/-- One more variable type leaves the others as they are. -/
theorem keepsTypes_pushType (type : VarType) :
    KeepsTypes module { module with vtypes := module.vtypes.push type } :=
  fun _ _ found => getElem?_push_of_some found _

/-- A module grows by one more variable type. -/
theorem grows_pushType (type : VarType) :
    Grows module { module with vtypes := module.vtypes.push type } :=
  ⟨fun found => ⟨_, keepsTypes_pushType type _ _ found, rfl, rfl⟩, fun found => found,
    fun found => found, fun found => ⟨_, found, rfl⟩⟩

/-- A module grows by a change of one variable type that keeps the size of its elements. -/
theorem grows_modifyType (index : Nat) {change : VarType → VarType}
    (sizes : ∀ type, (change type).elementCount = type.elementCount ∧
      (change type).elementBytes = type.elementBytes) :
    Grows module { module with vtypes := module.vtypes.modify index change } := by
  refine ⟨?_, fun found => found, fun found => found, fun found => ⟨_, found, rfl⟩⟩
  intro id type found
  have entry : module.vtypes[id.index.toNat]? = some type := found
  unfold vtype?
  rw [Array.getElem?_modify, entry]
  by_cases same : index = id.index.toNat
  · rw [if_pos same]
    exact ⟨_, rfl, sizes type⟩
  · rw [if_neg same]
    exact ⟨_, rfl, rfl, rfl⟩

/-- A module grows by one more register. -/
theorem grows_pushReg (spec : RegSpec) :
    Grows module { module with regs := module.regs.push spec } :=
  ⟨fun found => ⟨_, found, rfl, rfl⟩, fun found => getElem?_push_of_some found _,
    fun found => found, fun found => ⟨_, found, rfl⟩⟩

/-- A module grows by one more procedure type. -/
theorem grows_pushProcType (ptype : ProcType) :
    Grows module { module with ptypes := module.ptypes.push ptype } :=
  ⟨fun found => ⟨_, found, rfl, rfl⟩, fun found => found,
    fun found => getElem?_push_of_some found _, fun found => ⟨_, found, rfl⟩⟩

/-- A module grows by one more procedure. -/
theorem grows_pushProc (proc : ProcDef) :
    Grows module { module with procs := module.procs.push proc } :=
  ⟨fun found => ⟨_, found, rfl, rfl⟩, fun found => found, fun found => found,
    fun found => ⟨_, getElem?_push_of_some found _, rfl⟩⟩

/-- A module grows by one more instruction. -/
theorem grows_append (index : Nat) (instruction : Instruction) :
    Grows module { module with procs := module.procs.modify index (·.append instruction) } := by
  refine ⟨fun found => ⟨_, found, rfl, rfl⟩, fun found => found, fun found => found, ?_⟩
  intro id declared found
  have entry : module.procs[id.index.toNat]? = some declared := found
  unfold proc?
  rw [Array.getElem?_modify, entry]
  by_cases same : index = id.index.toNat
  · rw [if_pos same]
    exact ⟨_, rfl, rfl⟩
  · rw [if_neg same]
    exact ⟨_, rfl, rfl⟩

end Module

/-! ### Changes keep the invariant -/

namespace Module

variable {module : Module}

/-- One more variable type. -/
theorem WellFormed.pushType (wellFormed : module.WellFormed) {type : VarType}
    (noOwned : type.ownedRefs = #[]) (noNative : type.nativeRefs = #[]) :
    WellFormed { module with vtypes := module.vtypes.push type } := by
  refine wellFormed.mono (grows_pushType type) (getElem?_push_of_some wellFormed.word _)
    wellFormed.named ?_ (fun _ => .inl) (fun _ => .inl)
    fun _ member => .inl ⟨member, .inl (keepsTypes_pushType type)⟩
  intro other member
  rcases Array.mem_push.mp member with before | rfl
  · exact .inl before
  · refine .inr ⟨?_, ?_⟩
    · rw [noOwned]
      intro target member
      cases Array.not_mem_empty target member
    · rw [noNative]
      intro ptype member
      cases Array.not_mem_empty ptype member

/-- One more slot of a variable type, before the first instruction. -/
theorem WellFormed.modifyType (wellFormed : module.WellFormed) {vtype : VarTypeId}
    {change : VarType → VarType} (allowed : module.checkNewSlot vtype = .ok ())
    (sizes : ∀ type, (change type).elementCount = type.elementCount ∧
      (change type).elementBytes = type.elementBytes)
    (fits : ∀ type, type.Fits module → (change type).Fits module) :
    WellFormed { module with vtypes := module.vtypes.modify vtype.index.toNat change } := by
  obtain ⟨notWord, empty, -⟩ := checkNewSlot_eq_ok.mp allowed
  have grows : Grows module _ := grows_modifyType vtype.index.toNat sizes
  refine wellFormed.mono grows ?_ wellFormed.named ?_ (fun _ => .inl) (fun _ => .inl)
    fun proc member => .inl ⟨member, .inr (empty proc member)⟩
  · -- the word type is refused slots, so it stays the first
    have notFirst : vtype.index.toNat ≠ 0 := by
      intro first
      exact notWord (congrArg VarTypeId.mk (UInt32.toNat_inj.mp first))
    rw [Array.getElem?_modify, if_neg notFirst]
    exact wellFormed.word
  · intro type member
    rcases mem_of_mem_modify member with before | ⟨old, found, rfl⟩
    · exact .inl before
    · exact .inr ((fits old (wellFormed.vtypes old (Array.mem_of_getElem? found))).mono grows)

/-- One more register. -/
theorem WellFormed.pushReg (wellFormed : module.WellFormed) {spec : RegSpec}
    (fits : spec.Fits module) (room : module.regs.size ≤ RegId.maxIndex) :
    WellFormed { module with regs := module.regs.push spec } := by
  have grows : Grows module _ := grows_pushReg spec
  refine wellFormed.mono grows wellFormed.word ?_ (fun _ => .inl) ?_ (fun _ => .inl)
    fun _ member => .inl ⟨member, .inl fun _ _ found => found⟩
  · show (module.regs.push spec).size ≤ _
    rw [Array.size_push]
    exact Nat.succ_le_succ room
  · intro other member
    rcases Array.mem_push.mp member with before | rfl
    · exact .inl before
    · exact .inr (fits.mono grows)

/-- One more procedure type. -/
theorem WellFormed.pushProcType (wellFormed : module.WellFormed) {ptype : ProcType}
    (fits : ptype.Fits module) :
    WellFormed { module with ptypes := module.ptypes.push ptype } := by
  have grows : Grows module _ := grows_pushProcType ptype
  refine wellFormed.mono grows wellFormed.word wellFormed.named (fun _ => .inl) (fun _ => .inl)
    ?_ fun _ member => .inl ⟨member, .inl fun _ _ found => found⟩
  intro other member
  rcases Array.mem_push.mp member with before | rfl
  · exact .inl before
  · exact .inr (fits.mono grows)

/-- One more procedure, without instructions. -/
theorem WellFormed.pushProc (wellFormed : module.WellFormed) {flags : ProcFlags}
    {ptype : ProcTypeId} (known : flags.isKnown = true)
    (declared : (module.ptype? ptype).isSome = true) :
    WellFormed { module with procs := module.procs.push (ProcDef.empty flags ptype) } := by
  refine wellFormed.mono (grows_pushProc _) wellFormed.word wellFormed.named (fun _ => .inl)
    (fun _ => .inl) (fun _ => .inl) ?_
  intro proc member
  rcases Array.mem_push.mp member with before | rfl
  · exact .inl ⟨before, .inl fun _ _ found => found⟩
  · refine .inr ⟨[], known, declared, rfl, rfl, ?_⟩
    intro instruction member
    cases member

/-- One more instruction of a procedure that has room for it. -/
theorem WellFormed.append (wellFormed : module.WellFormed) {proc : ProcId}
    {instruction : Instruction} (checked : module.checkOperands instruction = .ok ())
    (room : ∀ {declared}, module.proc? proc = some declared →
      declared.instrCount.toNat + 1 < UInt32.size) :
    WellFormed
      { module with procs := module.procs.modify proc.index.toNat (·.append instruction) } := by
  have grows : Grows module _ := grows_append proc.index.toNat instruction
  have types : KeepsTypes module
      { module with procs := module.procs.modify proc.index.toNat (·.append instruction) } :=
    fun _ _ found => found
  refine wellFormed.mono grows wellFormed.word wellFormed.named (fun _ => .inl) (fun _ => .inl)
    (fun _ => .inl) ?_
  intro changed member
  dsimp only at member
  rcases mem_of_mem_modify member with before | ⟨declared, found, rfl⟩
  · exact .inl ⟨before, .inl types⟩
  · obtain ⟨code, fits⟩ := wellFormed.procs declared (Array.mem_of_getElem? found)
    have fitsNew := fits.mono grows (.inl types)
    refine .inr ⟨code ++ [instruction], fits.known, fitsNew.declared, ?_, ?_, ?_⟩
    · show (declared.code ++ instruction.encode).toList = _
      rw [Array.toList_appendList, fits.encoded, Instruction.encodeAll_concat]
    · -- the count does not overflow
      have small := room found
      show (declared.instrCount + 1).toNat = _
      rw [UInt32.toNat_add, List.length_append, ← fits.counted]
      exact Nat.mod_eq_of_lt small
    · intro other member
      rcases List.mem_append.mp member with before | added
      · exact fitsNew.checked other before
      · rw [List.mem_singleton.mp added]
        exact checkOperands_of_grows grows types instruction () checked

end Module

/-- The initial module is well-formed. -/
theorem Module.wellFormed_initial : Module.initial.WellFormed where
  word := rfl
  error := rfl
  named := by decide
  vtypes := by
    intro type member
    rw [Module.initial, Array.mem_singleton] at member
    subst member
    refine ⟨?_, ?_⟩
    · intro target member
      cases Array.not_mem_empty target member
    · intro ptype member
      cases Array.not_mem_empty ptype member
  regs := by
    intro spec member
    rw [Module.initial, Array.mem_singleton] at member
    subst member
    refine ⟨by decide, by decide, VarType.word, rfl, fun _ => rfl, by decide, ?_⟩
    intro init given
    cases given
  ptypes := by
    intro ptype member
    cases Array.not_mem_empty ptype member
  procs := by
    intro proc member
    cases Array.not_mem_empty proc member

namespace Builder

/-- A fresh builder is well-formed. -/
theorem wellFormed_initial : initial.WellFormed where
  module := Module.wellFormed_initial
  size := rfl
  counts := by
    intro index tracker proc found
    cases found

/-- A recorded instruction is counted. -/
theorem size_apply (tracker : Tracker) (update : Tracker.Update) :
    (tracker.apply update).size = tracker.size + 1 := by
  show (tracker.entries.push update.entry).size = _
  rw [Array.size_push]
  rfl

variable {builder : Builder}

/-- Declaring a procedure adds a tracker that has seen nothing. -/
theorem WellFormed.pushProc (wellFormed : builder.WellFormed) {flags : ProcFlags}
    {ptype : ProcTypeId} (known : flags.isKnown = true)
    (declared : (builder.module.ptype? ptype).isSome = true) :
    WellFormed
      ⟨{ builder.module with procs := builder.module.procs.push (ProcDef.empty flags ptype) },
        builder.trackers.push Tracker.empty⟩ where
  module := wellFormed.module.pushProc known declared
  size := by
    show (builder.trackers.push _).size = (builder.module.procs.push _).size
    rw [Array.size_push, Array.size_push, wellFormed.size]
  counts := by
    intro index tracker proc tracked found
    rw [Array.getElem?_push] at tracked found
    rw [wellFormed.size] at tracked
    -- both tables grow by their last entry, at the same index
    by_cases last : index = builder.module.procs.size
    · rw [if_pos last] at tracked found
      cases tracked
      cases found
      rfl
    · rw [if_neg last] at tracked found
      exact wellFormed.counts tracked found

/-- Appending an instruction to a procedure records it in its tracker. -/
theorem WellFormed.append (wellFormed : builder.WellFormed) {proc : ProcId}
    {instruction : Instruction} {update : Tracker.Update}
    (checked : builder.checkInstruction proc instruction = .ok update) :
    WellFormed
      ⟨{ builder.module with
          procs := builder.module.procs.modify proc.index.toNat (·.append instruction) },
        builder.trackers.modify proc.index.toNat (·.apply update)⟩ := by
  obtain ⟨-, here, -, trackedHere, appendable, -⟩ := checkInstruction_eq_ok.mp checked
  -- room is checked on the tracker, which counts what the procedure counts
  have counted : ∀ {declared}, builder.module.proc? proc = some declared →
      declared.instrCount.toNat + 1 < UInt32.size := by
    intro declared found
    rw [← wellFormed.counts trackedHere found]
    exact appendable.room
  refine ⟨wellFormed.module.append appendable.operands counted, ?_, ?_⟩
  · rw [Array.size_modify, Array.size_modify]
    exact wellFormed.size
  · intro index tracker changed tracked found
    rw [Array.getElem?_modify] at tracked found
    by_cases same : proc.index.toNat = index
    · rw [if_pos same] at tracked found
      obtain ⟨oldTracker, trackedOld, rfl⟩ := Option.map_eq_some_iff.mp tracked
      obtain ⟨declared, foundOld, rfl⟩ := Option.map_eq_some_iff.mp found
      have small := counted (show builder.module.proc? proc = _ from same ▸ foundOld)
      show _ = (declared.instrCount + 1).toNat
      rw [size_apply, wellFormed.counts trackedOld foundOld, UInt32.toNat_add]
      exact (Nat.mod_eq_of_lt small).symm
    · rw [if_neg same] at tracked found
      exact wellFormed.counts tracked found

/-- **Every change keeps builders well-formed.** -/
theorem Change.wellFormed {after : Builder} (change : Change builder after)
    (wellFormed : builder.WellFormed) : after.WellFormed := by
  cases change with
  | same => exact wellFormed
  | varType fits => exact ⟨wellFormed.module.pushType rfl rfl, wellFormed.size, wellFormed.counts⟩
  | reg fits room => exact ⟨wellFormed.module.pushReg fits room, wellFormed.size, wellFormed.counts⟩
  | procType fits => exact ⟨wellFormed.module.pushProcType fits, wellFormed.size, wellFormed.counts⟩
  | proc known declared => exact wellFormed.pushProc known declared
  | instruction checked => exact wellFormed.append checked
  | finish verified => exact wellFormed_initial
  | ownedSlot declared allowed =>
      refine ⟨wellFormed.module.modifyType allowed (fun _ => ⟨rfl, rfl⟩) ?_, wellFormed.size,
        wellFormed.counts⟩
      intro type fits
      refine ⟨?_, fits.native⟩
      intro other member
      rcases Array.mem_push.mp member with before | rfl
      · exact fits.owned other before
      · exact declared
  | nativeSlot declared allowed =>
      refine ⟨wellFormed.module.modifyType allowed (fun _ => ⟨rfl, rfl⟩) ?_, wellFormed.size,
        wellFormed.counts⟩
      intro type fits
      refine ⟨fits.owned, ?_⟩
      intro other member
      rcases Array.mem_push.mp member with before | rfl
      · exact fits.native other before
      · exact declared

/-- **Every reachable builder is well-formed.** -/
theorem Reachable.wellFormed (reached : builder.Reachable) : builder.WellFormed :=
  reached.holds Change.wellFormed wellFormed_initial

end Builder

end ScopeMachine
