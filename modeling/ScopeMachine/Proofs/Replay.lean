import ScopeMachine.Proofs.Operations
import ScopeMachine.Proofs.Records

/-! # Replaying descriptions

A description is replayed table by table: first the types without their slots, then the registers,
the procedure types, the slots, the procedures without their code, and the code. Each row of
operations leads from stage to stage of a table that is only partly there.

* `forM_push` is about rows that append to a table, `partway` is a table of which a part has been
  completed in place;
* `Module.settled` is the module that a description leads to;
* `Builder.forM_addVarType_eq_ok` and its like say for each table when its row of declarations
  succeeds and what it leads to;
* `Builder.module_of_forM_replayCode` says what replaying code leads to, and
  `Builder.Recorded.forM_replayCode` that recorded code can be replayed. -/

namespace ScopeMachine

/-! ### Tables that are partly there -/

section
variable {α β : Type} {table : Array α} {entry : α} {index : Nat}

/-- The entries of a table with their positions, from some position on. -/
theorem getElem?_zipIdx_drop {start position : Nat} :
    (table.toList.zipIdx.drop start)[index]? = some (entry, position) ↔
      start + index = position ∧ table[start + index]? = some entry := by
  rw [List.getElem?_drop, List.getElem?_zipIdx, Array.getElem?_toList]
  simp [and_comm]

/-- The entries of a table with their positions. -/
theorem getElem?_zipIdx {position : Nat} :
    table.toList.zipIdx[index]? = some (entry, position) ↔
      index = position ∧ table[index]? = some entry := by
  rw [← List.drop_zero (l := table.toList.zipIdx), getElem?_zipIdx_drop, Nat.zero_add]

/-- The positions of a table that is not too large are its identifiers. -/
theorem toNat_position (small : table.size < UInt32.size) (found : table[index]? = some entry) :
    (UInt32.ofNat index).toNat = index := by
  have inside := (Array.getElem?_eq_some_iff.mp found).1
  exact UInt32.toNat_ofNat_of_lt' (Nat.lt_trans inside small)

/-- Two changes of one entry are one. -/
theorem modify_modify (table : Array α) (index : Nat) (first second : α → α) :
    (table.modify index first).modify index second =
      table.modify index fun entry => second (first entry) := by
  apply Array.ext_getElem?
  intro position
  simp only [Array.getElem?_modify]
  split
  · simp [Function.comp_def]
  · rfl

/-- A change that changes nothing. -/
theorem modify_same (table : Array α) (index : Nat) :
    (table.modify index fun entry => entry) = table := by
  apply Array.ext_getElem?
  intro position
  simp [Array.getElem?_modify]

/-- The entries up to a position, and then the one at the position. -/
theorem push_extract (found : table[index]? = some entry) :
    (table.extract 0 index).push entry = table.extract 0 (index + 1) := by
  obtain ⟨inside, rfl⟩ := Array.getElem?_eq_some_iff.mp found
  rw [Array.extract_succ_right (Nat.succ_pos _) inside]

/-- **A row of actions that complete a table entry by entry**, from a prefix that is there already:
it succeeds if each is admitted after those before it. -/
theorem forM_push {ε σ : Type} {action : α → EStateM ε σ PUnit} (table : Array α) (make : α → β)
    (state : Array β → σ) (admits : Array β → α → Prop) (start : Nat) (after : σ)
    (step : ∀ done item next, action item (state done) = .ok ⟨⟩ next ↔
      admits done item ∧ next = state (done.push (make item))) :
    (table.toList.drop start).forM action (state ((table.map make).extract 0 start)) =
        .ok ⟨⟩ after ↔
      (∀ (index : Nat) (item : α), table[start + index]? = some item →
        admits ((table.map make).extract 0 (start + index)) item) ∧
      after = state (table.map make) := by
  have last : (table.map make).extract 0 (start + (table.toList.drop start).length) =
      table.map make := by
    simp
    omega
  have row : ∀ (index : Nat) (item : α), (table.toList.drop start)[index]? = some item ↔
      table[start + index]? = some item := by
    simp
  have stages : ∀ (index : Nat) (item : α), (table.toList.drop start)[index]? = some item →
      ∀ next, action item (state ((table.map make).extract 0 (start + index))) = .ok ⟨⟩ next ↔
        admits ((table.map make).extract 0 (start + index)) item ∧
          next = state ((table.map make).extract 0 (start + (index + 1))) := by
    intro index item found next
    have made : (table.map make)[start + index]? = some (make item) := by
      simp [(row index item).mp found]
    rw [step, push_extract made, Nat.add_assoc]
  have whole := forM_stages (fun index => state ((table.map make).extract 0 (start + index)))
    (fun index => admits ((table.map make).extract 0 (start + index))) after stages
  simpa only [row, last, Nat.add_zero] using whole

/-- A table whose first `done` entries have been completed. -/
def partway (full blank : α → β) (table : Array α) (done : Nat) : Array β :=
  table.mapIdx fun position entry => if position < done then full entry else blank entry

variable {full blank : α → β}

/-- The entries of a table that has been completed in part. -/
theorem getElem?_partway (done position : Nat) : (partway full blank table done)[position]? =
    table[position]?.map fun entry => if position < done then full entry else blank entry := by
  simp [partway]

/-- Nothing has been completed. -/
theorem partway_zero : partway full blank table 0 = table.map blank := by
  simp [Array.ext_iff, partway]

/-- Everything has been completed. -/
theorem partway_size : partway full blank table table.size = table.map full := by
  simp +contextual [Array.ext_iff, partway]

/-- One more entry is completed. -/
theorem modify_partway {change : β → β} (found : table[index]? = some entry)
    (completes : change (blank entry) = full entry) :
    (partway full blank table index).modify index change =
      partway full blank table (index + 1) := by
  apply Array.ext_getElem?
  intro position
  rw [Array.getElem?_modify, getElem?_partway, getElem?_partway]
  by_cases here : index = position
  · subst here
    simp [found, completes]
  · rw [if_neg here]
    congr 1
    funext other
    have same : position < index + 1 ↔ position < index := by omega
    simp only [same]

/-- An entry that is complete from the start need not be completed. -/
theorem partway_succ (found : table[index]? = some entry)
    (complete : blank entry = full entry) :
    partway full blank table (index + 1) = partway full blank table index := by
  rw [← modify_partway found (show id (blank entry) = full entry from complete)]
  simp [Array.ext_iff, Array.getElem_modify]

end

/-! ### What descriptions lead to -/

/-- The procedure without its code. -/
def ProcDef.blank (proc : ProcDef) : ProcDef := ProcDef.empty proc.flags proc.ptype

/-- The procedure with its instructions appended one by one. -/
def ProcDef.reencoded (proc : ProcDef) : ProcDef :=
  match proc.instructions with
  | .ok code => code.toList.foldl ProcDef.append proc.blank
  | .error _ => proc.blank

/-- The module that a description leads to: counts of elements are those that types prescribe, code
is written anew, and there is no identity yet. -/
def Module.settled (given : Module) : Module :=
  ⟨ModuleId.nil, given.vtypes, given.ptypes, given.regs.map given.settleReg,
    given.procs.map ProcDef.reencoded⟩

/-- Whether a procedure type fits depends on the registers alone. -/
theorem ProcType.fits_congr {left right : Module} (regs : left.regs = right.regs)
    {ptype : ProcType} : ptype.Fits left ↔ ptype.Fits right := by
  have lookup : ∀ id, left.reg? id = right.reg? id := fun id => by simp only [Module.reg?, regs]
  constructor
  · intro fits
    exact ⟨fits.known, fits.callable, fits.unreserved, lookup _ ▸ fits.io⟩
  · intro fits
    exact ⟨fits.known, fits.callable, fits.unreserved, lookup _ ▸ fits.io⟩

namespace Module

variable {given stripped : Module}

/-- The first register has the count of its type. -/
theorem getElem?_settled_regs (word : given.vtypes[0]? = some VarType.word)
    (error : given.regs[0]? = some RegSpec.error) :
    given.settled.regs[0]? = some RegSpec.error := by
  have found : given.vtype? RegSpec.error.vtype = some VarType.word := word
  simp only [settled, Array.getElem?_map, error, Option.map_some, settleReg_eq found]
  rfl

/-- Types are found without their slots. -/
theorem vtype?_stripped (types : stripped.vtypes = given.vtypes.map VarType.bare) (id : VarTypeId) :
    stripped.vtype? id = (given.vtype? id).map VarType.bare := by
  simp only [vtype?, types, Array.getElem?_map]

/-- Types without slots settle the same counts. -/
theorem settleReg_stripped (types : stripped.vtypes = given.vtypes.map VarType.bare)
    (spec : RegSpec) : stripped.settleReg spec = given.settleReg spec := by
  cases found : given.vtype? spec.vtype with
  | none => simp only [settleReg, vtype?_stripped types, found, Option.map_none]
  | some type =>
      have foundBare : stripped.vtype? spec.vtype = some type.bare := by
        rw [vtype?_stripped types, found, Option.map_some]
      rw [settleReg_eq found, settleReg_eq foundBare]
      rfl

/-- Registers fit types without slots as well. -/
theorem Admits.strip (types : stripped.vtypes = given.vtypes.map VarType.bare) {spec : RegSpec}
    (admits : given.Admits spec) : stripped.Admits spec := by
  obtain ⟨type, found, agrees, fits⟩ := admits
  obtain ⟨same, foundSame, rest⟩ := fits.type
  have lookup : ∀ {type}, given.vtype? spec.vtype = some type →
      stripped.vtype? spec.vtype = some type.bare := by
    intro type found
    rw [vtype?_stripped types, found, Option.map_some]
  exact ⟨type.bare, lookup found, agrees, fits.known, fits.exclusive, same.bare, lookup foundSame,
    rest⟩

end Module

/-! ### Rows of declarations -/

namespace Builder

variable {given : Module} {before after : Builder}

/-- A builder with these tables, whose procedures have no code. -/
def declaring (vtypes : Array VarType) (ptypes : Array ProcType) (regs : Array RegSpec)
    (procs : Array ProcDef) : Builder :=
  ⟨⟨ModuleId.nil, vtypes, ptypes, regs, procs⟩, Array.replicate procs.size Tracker.empty⟩

/-- Declaring the types, without slots. -/
theorem forM_addVarType_eq_ok (word : given.vtypes[0]? = some VarType.word) :
    (given.vtypes.toList.drop 1).forM
        (fun type => discard (addVarType type.elementCount type.elementBytes)) initial =
          .ok ⟨⟩ after ↔
      (∀ (index : Nat) (type : VarType), given.vtypes[1 + index]? = some type →
        type.elementCount.toNat * type.elementBytes.toNat < UInt32.size) ∧
      after = declaring (given.vtypes.map VarType.bare) #[] #[RegSpec.error] #[] := by
  have bare : (given.vtypes.map VarType.bare)[0]? = some VarType.word := by
    rw [Array.getElem?_map, word]
    rfl
  have first : initial =
      declaring ((given.vtypes.map VarType.bare).extract 0 1) #[] #[RegSpec.error] #[] := by
    rw [← push_extract bare, Array.extract_zero]
    rfl
  rw [first]
  exact forM_push given.vtypes VarType.bare (declaring · #[] #[RegSpec.error] #[])
    (fun _ type => type.elementCount.toNat * type.elementBytes.toNat < UInt32.size) 1 after
    fun _ _ _ => addVarType_eq_ok

/-- Declaring the registers, with settled counts. -/
theorem forM_replayReg_eq_ok (word : given.vtypes[0]? = some VarType.word)
    (error : given.regs[0]? = some RegSpec.error) :
    (given.regs.toList.drop 1).forM (fun spec => discard (replayReg spec))
        (declaring (given.vtypes.map VarType.bare) #[] #[RegSpec.error] #[]) = .ok ⟨⟩ after ↔
      (∀ (index : Nat) (spec : RegSpec), given.regs[1 + index]? = some spec →
        (given.settled.regs.extract 0 (1 + index)).size ≤ RegId.maxIndex ∧
          (declaring (given.vtypes.map VarType.bare) #[]
            (given.settled.regs.extract 0 (1 + index)) #[]).module.Admits spec) ∧
      after = declaring (given.vtypes.map VarType.bare) #[] given.settled.regs #[] := by
  have first : given.settled.regs.extract 0 1 = #[RegSpec.error] := by
    rw [← push_extract (Module.getElem?_settled_regs word error), Array.extract_zero]
    rfl
  rw [← first]
  refine forM_push given.regs given.settleReg
    (fun regs => declaring (given.vtypes.map VarType.bare) #[] regs #[])
    (fun regs spec => regs.size ≤ RegId.maxIndex ∧
      (declaring (given.vtypes.map VarType.bare) #[] regs #[]).module.Admits spec) 1 after ?_
  intro done spec next
  rw [replayReg_eq_ok, Module.settleReg_stripped rfl]
  rfl

/-- Declaring the procedure types. -/
theorem forM_addProcType_eq_ok :
    given.ptypes.toList.forM (fun ptype => discard (addProcType ptype.flags ptype.io))
        (declaring (given.vtypes.map VarType.bare) #[] given.settled.regs #[]) = .ok ⟨⟩ after ↔
      (∀ (index : Nat) (ptype : ProcType), given.ptypes[index]? = some ptype →
        ptype.Fits given.settled) ∧
      after = declaring (given.vtypes.map VarType.bare) given.ptypes given.settled.regs #[] := by
  have row := forM_push given.ptypes (fun ptype => ptype)
    (fun ptypes => declaring (given.vtypes.map VarType.bare) ptypes given.settled.regs #[])
    (fun _ ptype => ptype.Fits given.settled) 0 after
    fun _ ptype _ => addProcType_eq_ok.trans
      (and_congr (ProcType.fits_congr (by rfl)) Iff.rfl)
  simpa only [List.drop_zero, Array.map_id', Array.extract_zero, Nat.zero_add] using row

/-- Declaring the procedures, without code. -/
theorem forM_addProc_eq_ok :
    given.procs.toList.forM (fun proc => discard (addProc proc.flags proc.ptype))
        (declaring given.vtypes given.ptypes given.settled.regs #[]) = .ok ⟨⟩ after ↔
      (∀ (index : Nat) (proc : ProcDef), given.procs[index]? = some proc →
        proc.flags.isKnown = true ∧ (given.ptype? proc.ptype).isSome = true) ∧
      after = declaring given.vtypes given.ptypes given.settled.regs
        (given.procs.map ProcDef.blank) := by
  have step : ∀ (done : Array ProcDef) (proc : ProcDef) (next : Builder),
      discard (addProc proc.flags proc.ptype)
          (declaring given.vtypes given.ptypes given.settled.regs done) = .ok ⟨⟩ next ↔
        (proc.flags.isKnown = true ∧ (given.ptype? proc.ptype).isSome = true) ∧
          next = declaring given.vtypes given.ptypes given.settled.regs
            (done.push proc.blank) := by
    intro done proc next
    rw [addProc_eq_ok, declaring, declaring, Array.size_push, Array.replicate_succ]
    rfl
  have row := forM_push given.procs ProcDef.blank
    (declaring given.vtypes given.ptypes given.settled.regs) _ 0 after step
  simpa only [List.drop_zero, Array.extract_zero, Nat.zero_add] using row

/-! ### Slots -/

/-- The builder after slots have been added to a type. -/
def withSlots (builder : Builder) (vtype : VarTypeId) (slots : List Slot) : Builder :=
  { builder with
    module := { builder.module with
      vtypes := builder.module.vtypes.modify vtype.index.toNat (slots.foldl VarType.addSlot) } }

/-- Nothing changes without a slot. -/
theorem withSlots_nil (builder : Builder) (vtype : VarTypeId) :
    builder.withSlots vtype [] = builder := by
  show (⟨{ builder.module with vtypes := builder.module.vtypes.modify _ fun type => type },
    builder.trackers⟩ : Builder) = builder
  rw [modify_same]

/-- The last slot is added after the others. -/
theorem withSlots_concat (builder : Builder) (vtype : VarTypeId) (slots : List Slot)
    (slot : Slot) :
    builder.withSlots vtype (slots ++ [slot]) =
      (builder.withSlots vtype slots).withSlots vtype [slot] := by
  simp only [withSlots, modify_modify, List.foldl_append]

/-- Slots are added in the order of their list. -/
theorem replaySlots_eq (vtype : VarTypeId) (type : VarType) :
    replaySlots vtype type = type.allSlots.forM fun slot => discard (slot.add vtype) := by
  simp only [replaySlots, VarType.allSlots, List.forM_eq_forM, List.forM_append, List.forM_map]
  rfl

/-- Adding the slots of a type. -/
theorem replaySlots_eq_ok {builder : Builder} {vtype : VarTypeId} {type : VarType} :
    replaySlots vtype type builder = .ok ⟨⟩ after ↔
      (∀ (index : Nat) (slot : Slot), type.allSlots[index]? = some slot →
        slot.Declared (builder.withSlots vtype (type.allSlots.take index)).module ∧
        (builder.withSlots vtype (type.allSlots.take index)).module.checkNewSlot vtype = .ok ()) ∧
      after = builder.withSlots vtype type.allSlots := by
  have step : ∀ (index : Nat) (slot : Slot), type.allSlots[index]? = some slot → ∀ next,
      discard (slot.add vtype) (builder.withSlots vtype (type.allSlots.take index)) =
          .ok ⟨⟩ next ↔
        (slot.Declared (builder.withSlots vtype (type.allSlots.take index)).module ∧
          (builder.withSlots vtype (type.allSlots.take index)).module.checkNewSlot vtype = .ok ()) ∧
        next = builder.withSlots vtype (type.allSlots.take (index + 1)) := by
    intro index slot found next
    have more : type.allSlots.take (index + 1) = type.allSlots.take index ++ [slot] := by
      rw [List.take_add_one, found]
      rfl
    rw [Slot.add_eq_ok, more, withSlots_concat]
    rfl
  have row := forM_stages (fun index => builder.withSlots vtype (type.allSlots.take index)) _ after
    step
  simpa only [List.take_zero, List.take_length, withSlots_nil, replaySlots_eq] using row

/-- A builder with the slots of the first types. -/
def slotsStage (given : Module) (index : Nat) : Builder :=
  declaring (partway (fun type => type) VarType.bare given.vtypes index) given.ptypes
    given.settled.regs #[]

/-- Adding its slots completes a type. -/
theorem withSlots_slotsStage {index : Nat} {type : VarType} {vtype : VarTypeId}
    (found : given.vtypes[index]? = some type) (names : vtype.index.toNat = index) :
    (slotsStage given index).withSlots vtype type.allSlots = slotsStage given (index + 1) := by
  simp only [withSlots, slotsStage, declaring, names]
  rw [modify_partway found]
  exact VarType.foldl_allSlots type

/-- Adding the slots of all types but the first. -/
theorem forM_replaySlots_eq_ok (word : given.vtypes[0]? = some VarType.word)
    (small : given.vtypes.size < UInt32.size) :
    (given.vtypes.toList.zipIdx.drop 1).forM
        (fun entry => replaySlots ⟨UInt32.ofNat entry.2⟩ entry.1)
        (declaring (given.vtypes.map VarType.bare) given.ptypes given.settled.regs #[]) =
          .ok ⟨⟩ after ↔
      (∀ (index : Nat) (type : VarType), given.vtypes[1 + index]? = some type →
        ∃ next, replaySlots ⟨UInt32.ofNat (1 + index)⟩ type (slotsStage given (1 + index)) =
          .ok ⟨⟩ next) ∧
      after = declaring given.vtypes given.ptypes given.settled.regs #[] := by
  -- the word type has no slots, so it is complete from the start
  have first : partway (fun type => type) VarType.bare given.vtypes 1 =
      given.vtypes.map VarType.bare := (partway_succ word (by rfl)).trans partway_zero
  have inside := (Array.getElem?_eq_some_iff.mp word).1
  have length : 1 + (given.vtypes.toList.zipIdx.drop 1).length = given.vtypes.size := by
    rw [List.length_drop, List.length_zipIdx, Array.length_toList]
    omega
  have step : ∀ (index : Nat) (entry : VarType × Nat),
      (given.vtypes.toList.zipIdx.drop 1)[index]? = some entry → ∀ next,
      replaySlots ⟨UInt32.ofNat entry.2⟩ entry.1 (slotsStage given (1 + index)) = .ok ⟨⟩ next ↔
        (∃ next, replaySlots ⟨UInt32.ofNat entry.2⟩ entry.1 (slotsStage given (1 + index)) =
          .ok ⟨⟩ next) ∧ next = slotsStage given (1 + (index + 1)) := by
    rintro index ⟨type, position⟩ found next
    obtain ⟨rfl, declared⟩ := getElem?_zipIdx_drop.mp found
    have completed : (slotsStage given (1 + index)).withSlots ⟨UInt32.ofNat (1 + index)⟩
        type.allSlots = slotsStage given (1 + (index + 1)) :=
      withSlots_slotsStage declared (toNat_position small declared)
    constructor
    · intro ran
      exact ⟨⟨next, ran⟩, (replaySlots_eq_ok.mp ran).2.trans completed⟩
    · rintro ⟨⟨other, ran⟩, rfl⟩
      obtain rfl := (replaySlots_eq_ok.mp ran).2.trans completed
      exact ran
  have row := forM_stages (fun index => slotsStage given (1 + index)) _ after step
  simpa only [length, Prod.forall, getElem?_zipIdx_drop, and_imp, forall_eq', slotsStage,
    Nat.add_zero, first, partway_size, Array.map_id'] using row

end Builder

/-! ### Code -/

/-- The procedure after several instructions have been appended. -/
theorem ProcDef.foldl_append (proc : ProcDef) (code : List Instruction) :
    code.foldl ProcDef.append proc =
      { proc with
        code := proc.code ++ Instruction.encodeAll code
        instrCount := proc.instrCount + UInt32.ofNat code.length } := by
  induction code generalizing proc with
  | nil => simp [Instruction.encodeAll]
  | cons instruction code ih =>
      have bytes : proc.code ++ instruction.encode ++ Instruction.encodeAll code =
          proc.code ++ Instruction.encodeAll (instruction :: code) := by
        rw [← Array.toList_inj]
        simp [Instruction.encodeAll]
      have count : proc.instrCount + 1 + UInt32.ofNat code.length =
          proc.instrCount + UInt32.ofNat (code.length + 1) := by
        rw [UInt32.ofNat_add, UInt32.add_assoc, UInt32.add_comm 1]
        rfl
      simp only [List.foldl_cons, ih, ProcDef.append, bytes, count, List.length_cons]

/-- A procedure to which nothing but these instructions has been appended. -/
theorem ProcDef.foldl_append_blank (proc : ProcDef) (code : List Instruction) :
    code.foldl ProcDef.append proc.blank =
      ⟨proc.flags, proc.ptype, (Instruction.encodeAll code).toArray, UInt32.ofNat code.length⟩ := by
  have bytes : (#[] : Array UInt8) ++ Instruction.encodeAll code =
      (Instruction.encodeAll code).toArray := by
    rw [← Array.toList_inj]
    simp
  simp only [ProcDef.foldl_append, ProcDef.blank, ProcDef.empty, bytes, UInt32.zero_add]

namespace Builder

variable {given : Module} {builder before after : Builder}

/-- Appending instructions adds to one procedure, and to nothing else of the module. -/
theorem module_of_forM_addInstruction {id : ProcId} {code : List Instruction}
    (ran : code.forM (fun instruction => discard (addInstruction id instruction)) before =
      .ok ⟨⟩ after) :
    after.module = { before.module with
      procs := before.module.procs.modify id.index.toNat (code.foldl ProcDef.append) } := by
  induction code generalizing before with
  | nil =>
      cases ran
      simp only [List.foldl_nil, modify_same]
  | cons instruction code ih =>
      obtain ⟨middle, first, others⟩ := forM_cons_apply_eq_ok.mp ran
      obtain ⟨update, -, rfl⟩ := addInstruction_eq_ok.mp first
      simp only [ih others, modify_modify, List.foldl_cons]

/-- Replaying code succeeds only if the code can be decoded. -/
theorem module_of_replayCode {id : ProcId} {proc : ProcDef}
    (ran : replayCode id proc before = .ok ⟨⟩ after) :
    ∃ code, proc.instructions = .ok code ∧
      after.module = { before.module with
        procs := before.module.procs.modify id.index.toNat
          (code.toList.foldl ProcDef.append) } := by
  unfold replayCode at ran
  cases decoded : liftCodec proc.instructions with
  | error error =>
      rw [decoded] at ran
      cases ran
  | ok code =>
      rw [decoded] at ran
      exact ⟨code, liftCodec_eq_ok.mp decoded, module_of_forM_addInstruction ran⟩

/-- Replaying all code completes the procedures. -/
theorem module_of_forM_replayCode (small : given.procs.size < UInt32.size)
    (blank : before.module = { given.settled with procs := given.procs.map ProcDef.blank })
    (ran : given.procs.toList.zipIdx.forM
      (fun entry => replayCode ⟨UInt32.ofNat entry.2⟩ entry.1) before = .ok ⟨⟩ after) :
    after.module = given.settled := by
  have step : ∀ (index : Nat) (entry : ProcDef × Nat),
      given.procs.toList.zipIdx[index]? = some entry → ∀ state next : Builder,
      state.module = { given.settled with
        procs := partway ProcDef.reencoded ProcDef.blank given.procs index } →
      replayCode ⟨UInt32.ofNat entry.2⟩ entry.1 state = .ok ⟨⟩ next →
      next.module = { given.settled with
        procs := partway ProcDef.reencoded ProcDef.blank given.procs (index + 1) } := by
    rintro index ⟨proc, position⟩ found state next held ran
    obtain ⟨rfl, declared⟩ := getElem?_zipIdx.mp found
    obtain ⟨code, decoded, changed⟩ := module_of_replayCode ran
    have completed : code.toList.foldl ProcDef.append proc.blank = proc.reencoded := by
      simp only [ProcDef.reencoded, decoded]
    simp only [changed, held, toNat_position small declared]
    rw [modify_partway declared]
    exact completed
  have start : before.module = { given.settled with
      procs := partway ProcDef.reencoded ProcDef.blank given.procs 0 } := by
    rw [blank, partway_zero]
  rw [forM_keeps _ step start ran]
  simp only [List.length_zipIdx, Array.length_toList, partway_size]
  rfl

/-- Code that may be appended is appended. -/
theorem forM_addInstruction_of_records {id : ProcId} {proc : ProcDef} {tracker last : Tracker}
    {type : ProcType} {code : List Instruction}
    (found : builder.module.proc? id = some proc)
    (foundType : builder.module.ptype? proc.ptype = some type)
    (tracked : builder.trackers[id.index.toNat]? = some tracker)
    (records : tracker.Records ⟨builder.module, type.io⟩ code last) :
    code.forM (fun instruction => discard (addInstruction id instruction)) builder =
      .ok ⟨⟩ ⟨{ builder.module with
          procs := builder.module.procs.modify id.index.toNat (code.foldl ProcDef.append) },
        builder.trackers.modify id.index.toNat fun _ => last⟩ := by
  induction code generalizing builder proc tracker with
  | nil =>
      obtain rfl := Tracker.records_nil.mp records
      have kept : (builder.trackers.modify id.index.toNat fun _ => last) = builder.trackers := by
        apply Array.ext_getElem?
        intro position
        rw [Array.getElem?_modify]
        split
        next same => rw [← same, tracked, Option.map_some]
        next => rfl
      simp only [List.foldl_nil, modify_same, kept]
      rfl
  | cons instruction code ih =>
      obtain ⟨update, appendable, admitted, others⟩ := Tracker.records_cons.mp records
      have isIo : builder.module.ioOf? id = some type.io := by
        simp only [Module.ioOf?, found, Option.bind_some, foundType, Option.map_some]
      have checked : builder.checkInstruction id instruction = .ok update := by
        refine checkInstruction_eq_ok.mpr
          ⟨⟨builder.module, type.io⟩, tracker, ?_, tracked, appendable, admitted⟩
        simp only [ScopeContext.of?, isIo, Option.map_some]
      refine forM_cons_apply_eq_ok.mpr ⟨_, addInstruction_eq_ok.mpr ⟨update, checked, rfl⟩, ?_⟩
      -- the others are appended to a module with the same declarations
      have same := Module.SameDeclarations.modify builder.module id.index.toNat
        fun proc => (rfl : (proc.append instruction).ptype = proc.ptype)
      have appended : (builder.module.procs.modify id.index.toNat
          (·.append instruction))[id.index.toNat]? = some (proc.append instruction) := by
        have entry : builder.module.procs[id.index.toNat]? = some proc := found
        simp [Array.getElem?_modify, entry]
      have applied : (builder.trackers.modify id.index.toNat
          (·.apply update))[id.index.toNat]? = some (tracker.apply update) := by
        simp [Array.getElem?_modify, tracked]
      have rest := @ih
        ⟨{ builder.module with
            procs := builder.module.procs.modify id.index.toNat (·.append instruction) },
          builder.trackers.modify id.index.toNat (·.apply update)⟩
        _ _ appended foundType applied (others.congr same)
      simp only [modify_modify] at rest
      exact rest

/-- The builder with the code of its first procedures. -/
def codeStage (builder : Builder) (index : Nat) : Builder :=
  ⟨{ builder.module with
      procs := partway (fun proc => proc) ProcDef.blank builder.module.procs index },
    partway (fun tracker => tracker) (fun _ => Tracker.empty) builder.trackers index⟩

/-- Code that is not there yet makes no difference to the declarations. -/
theorem sameDeclarations_codeStage (builder : Builder) (index : Nat) :
    builder.module.SameDeclarations (builder.codeStage index).module := by
  refine ⟨rfl, rfl, rfl, ?_⟩
  apply Array.ext_getElem?
  intro position
  simp only [codeStage, Array.getElem?_map, getElem?_partway, Option.map_map]
  congr 1
  funext proc
  by_cases complete : position < index
  · simp [complete]
  · simp [complete, ProcDef.blank, ProcDef.empty]

/-- Replaying the code of one procedure. -/
theorem Recorded.replayCode_codeStage (recorded : builder.Recorded)
    (small : builder.module.procs.size < UInt32.size) {index : Nat} {proc : ProcDef}
    (found : builder.module.procs[index]? = some proc) :
    replayCode ⟨UInt32.ofNat index⟩ proc (builder.codeStage index) =
      .ok ⟨⟩ (builder.codeStage (index + 1)) := by
  have wellFormed := recorded.wellFormed
  have inside := (Array.getElem?_eq_some_iff.mp found).1
  have names := toNat_position small found
  have tracked := Array.getElem?_eq_getElem (wellFormed.size.symm ▸ inside)
  obtain ⟨code, recordedProc⟩ := recorded.procs found tracked
  obtain ⟨type, foundType, records⟩ := recordedProc.records
  have counted := wellFormed.length_eq found tracked recordedProc
  have rebuilt : code.foldl ProcDef.append proc.blank = proc := by
    rw [ProcDef.foldl_append_blank, ← recordedProc.encoded, ← counted, UInt32.ofNat_toNat,
      Array.toArray_toList]
  have foundBlank : (builder.codeStage index).module.proc? ⟨UInt32.ofNat index⟩ =
      some proc.blank := by
    simp only [Module.proc?, names, codeStage, getElem?_partway, found]
    simp
  have trackedEmpty : (builder.codeStage index).trackers[(UInt32.ofNat index).toNat]? =
      some Tracker.empty := by
    simp only [names, codeStage, getElem?_partway, tracked]
    simp
  have appended := forM_addInstruction_of_records foundBlank foundType trackedEmpty
    (records.congr (builder.sameDeclarations_codeStage index))
  have decoded : liftCodec proc.instructions = .ok code.toArray := by
    rw [liftCodec_eq_ok, ProcDef.instructions, recordedProc.encoded,
      Instruction.decodeAll_encodeAll]
  simp only [replayCode, decoded]
  refine appended.trans ?_
  simp only [codeStage, names]
  rw [modify_partway found rebuilt, modify_partway tracked rfl]

/-- **Replaying the code that a builder has recorded leads to the builder.** -/
theorem Recorded.forM_replayCode (recorded : builder.Recorded)
    (small : builder.module.procs.size < UInt32.size) :
    builder.module.procs.toList.zipIdx.forM
        (fun entry => replayCode ⟨UInt32.ofNat entry.2⟩ entry.1)
        (declaring builder.module.vtypes builder.module.ptypes builder.module.regs
          (builder.module.procs.map ProcDef.blank)) = .ok ⟨⟩ builder := by
  have size := recorded.wellFormed.size
  have first : builder.codeStage 0 = declaring builder.module.vtypes builder.module.ptypes
      builder.module.regs (builder.module.procs.map ProcDef.blank) := by
    simp only [codeStage, declaring, partway_zero, Array.map_const', size, Array.size_map,
      recorded.id]
  have last : builder.codeStage builder.module.procs.toList.zipIdx.length = builder := by
    rw [List.length_zipIdx, Array.length_toList]
    simp only [codeStage]
    rw [partway_size, ← size, partway_size]
    simp
  rw [← first]
  refine (forM_stages builder.codeStage (fun _ _ => True) builder ?_).mpr
    ⟨fun _ _ _ => trivial, last.symm⟩
  rintro index ⟨proc, position⟩ found next
  obtain ⟨rfl, declared⟩ := getElem?_zipIdx.mp found
  rw [recorded.replayCode_codeStage small declared]
  simp [eq_comm]

end Builder

end ScopeMachine
