import ScopeMachine.Proofs.Compactness
import ScopeMachine.Proofs.Replay

/-! # Importing descriptions

Nothing in a description is trusted: importing it repeats every declaration and every instruction,
each checked again. They come in another order than that in which a builder was used, at first types
have no slots and procedures no code, and code is decoded and written anew. Yet nothing gets lost.

* `Builder.module_of_ofModule` says what importing a description leads to;
* `Builder.Recorded.ofModule_eq_ok` says that what a builder has recorded can be imported;
* `replay_reproduces` and `import_faithful` are what follows for the descriptions that builders hold
  and for arbitrary ones. -/

namespace ScopeMachine

namespace Builder

variable {given : Module} {builder : Builder}

/-- Importing a description is replaying it on a fresh builder. -/
theorem ofModule_eq_ok : ofModule given = .ok builder ↔
    given.vtypes[0]? = some VarType.word ∧ given.regs[0]? = some RegSpec.error ∧
      ∃ types regs ptypes slots procs,
        (given.vtypes.toList.drop 1).forM
          (fun type => discard (addVarType type.elementCount type.elementBytes)) initial =
            .ok ⟨⟩ types ∧
        (given.regs.toList.drop 1).forM (fun spec => discard (replayReg spec)) types =
          .ok ⟨⟩ regs ∧
        given.ptypes.toList.forM (fun ptype => discard (addProcType ptype.flags ptype.io)) regs =
          .ok ⟨⟩ ptypes ∧
        (given.vtypes.toList.zipIdx.drop 1).forM
          (fun entry => replaySlots ⟨UInt32.ofNat entry.2⟩ entry.1) ptypes = .ok ⟨⟩ slots ∧
        given.procs.toList.forM (fun proc => discard (addProc proc.flags proc.ptype)) slots =
          .ok ⟨⟩ procs ∧
        given.procs.toList.zipIdx.forM
          (fun entry => replayCode ⟨UInt32.ofNat entry.2⟩ entry.1) procs = .ok ⟨⟩ builder := by
  have replayed : ofModule given = .ok builder ↔ replay given initial = .ok ⟨⟩ builder := by
    unfold ofModule
    cases replay given initial <;> simp
  rw [replayed]
  unfold replay
  simp only [guarded_apply_eq_ok, bind_apply_eq_ok, ne_eq, Decidable.not_not]
  constructor
  · rintro ⟨word, error, _, types, ranTypes, _, regs, ranRegs, _, ptypes, ranPtypes, _, slots,
      ranSlots, _, procs, ranProcs, ranCode⟩
    exact ⟨word, error, types, regs, ptypes, slots, procs, ranTypes, ranRegs, ranPtypes, ranSlots,
      ranProcs, ranCode⟩
  · rintro ⟨word, error, types, regs, ptypes, slots, procs, ranTypes, ranRegs, ranPtypes, ranSlots,
      ranProcs, ranCode⟩
    exact ⟨word, error, ⟨⟩, types, ranTypes, ⟨⟩, regs, ranRegs, ⟨⟩, ptypes, ranPtypes, ⟨⟩, slots,
      ranSlots, ⟨⟩, procs, ranProcs, ranCode⟩

/-- **What importing a description leads to.** -/
theorem module_of_ofModule (imported : ofModule given = .ok builder)
    (types : given.vtypes.size < UInt32.size) (procs : given.procs.size < UInt32.size) :
    builder.module = given.settled := by
  obtain ⟨word, error, _, _, _, _, _, ranTypes, ranRegs, ranPtypes, ranSlots, ranProcs, ranCode⟩ :=
    ofModule_eq_ok.mp imported
  obtain ⟨-, rfl⟩ := (forM_addVarType_eq_ok word).mp ranTypes
  obtain ⟨-, rfl⟩ := (forM_replayReg_eq_ok word error).mp ranRegs
  obtain ⟨-, rfl⟩ := forM_addProcType_eq_ok.mp ranPtypes
  obtain ⟨-, rfl⟩ := (forM_replaySlots_eq_ok word types).mp ranSlots
  obtain ⟨-, rfl⟩ := forM_addProc_eq_ok.mp ranProcs
  exact module_of_forM_replayCode procs rfl ranCode

/-- Only code that can be decoded is imported. -/
theorem exists_instructions_of_ofModule (imported : ofModule given = .ok builder) :
    ∀ proc ∈ given.procs, ∃ code, proc.instructions = .ok code := by
  obtain ⟨-, -, _, _, _, _, _, -, -, -, -, -, ranCode⟩ := ofModule_eq_ok.mp imported
  intro proc member
  obtain ⟨index, found⟩ := Array.mem_iff_getElem?.mp member
  have entry : (proc, index) ∈ given.procs.toList.zipIdx :=
    List.mem_of_getElem? (getElem?_zipIdx.mpr ⟨rfl, found⟩)
  obtain ⟨before, after, ran⟩ := forM_apply_eq_ok ranCode _ entry
  obtain ⟨code, decoded, -⟩ := module_of_replayCode ran
  exact ⟨code, decoded⟩

/-! ### What has been recorded can be imported -/

end Builder

/-- A register that fits has the count that its type prescribes. -/
theorem RegSpec.Fits.settle_eq {module : Module} {spec : RegSpec} (fits : spec.Fits module)
    {type : VarType} (found : module.vtype? spec.vtype = some type) : spec.settle type = spec := by
  obtain ⟨other, foundOther, count, -⟩ := fits.type
  obtain rfl : other = type := Option.some.inj (foundOther.symm.trans found)
  cases dynamic : other.isDynamic with
  | true => simp [RegSpec.settle, dynamic]
  | false => simp [RegSpec.settle, dynamic, ← count dynamic]

namespace Module

variable {module : Module}

/-- Registers that fit can be declared as they are. -/
theorem admits_of_fits {spec : RegSpec} (fits : spec.Fits module) : module.Admits spec := by
  obtain ⟨type, found, count, -⟩ := fits.type
  refine ⟨type, found, fun _ fixed => .inr (count fixed), ?_⟩
  rw [fits.settle_eq found]
  exact fits

/-- The counts of a well-formed module are settled. -/
theorem WellFormed.settled_regs (wellFormed : module.WellFormed) :
    module.settled.regs = module.regs := by
  have each : ∀ spec ∈ module.regs, module.settleReg spec = spec := by
    intro spec member
    have fits := wellFormed.regs spec member
    obtain ⟨type, found, -⟩ := fits.type
    rw [settleReg_eq found, fits.settle_eq found]
  exact Array.map_congr_left each |>.trans (Array.map_id' _)

end Module

/-- The references of a type that fits are declared. -/
theorem VarType.Fits.declared {module : Module} {type : VarType} (fits : type.Fits module) :
    ∀ slot ∈ type.allSlots, slot.Declared module := by
  intro slot member
  rcases List.mem_append.mp member with isOwned | isNative
  · obtain ⟨target, isTarget, rfl⟩ := List.mem_map.mp isOwned
    exact fits.owned target (Array.mem_toList_iff.mp isTarget)
  · obtain ⟨ptype, isPtype, rfl⟩ := List.mem_map.mp isNative
    exact fits.native ptype (Array.mem_toList_iff.mp isPtype)

/-- Whether something is declared depends on the sizes of the tables alone. -/
theorem Slot.Declared.of_size {left right : Module} {slot : Slot} (declared : slot.Declared left)
    (vtypes : left.vtypes.size = right.vtypes.size) (ptypes : left.ptypes = right.ptypes) :
    slot.Declared right := by
  cases slot with
  | owned target =>
      have inside : (left.vtypes[target.index.toNat]?).isSome = true := declared
      show (right.vtypes[target.index.toNat]?).isSome = true
      simpa [vtypes] using inside
  | native ptype =>
      have found : (left.ptype? ptype).isSome = true := declared
      rw [Module.ptype?, ptypes] at found
      exact found

namespace Builder

/-- The slots of a type that can be counted, and whose references are declared, are added. -/
theorem exists_replaySlots {module : Module} {index : Nat} {type : VarType}
    (found : module.vtypes[1 + index]? = some type) (fits : type.Fits module) (sized : type.Sized)
    (small : module.vtypes.size < UInt32.size) :
    ∃ next, replaySlots ⟨UInt32.ofNat (1 + index)⟩ type (slotsStage module (1 + index)) =
      .ok ⟨⟩ next := by
  have names := toNat_position small found
  refine ⟨_, replaySlots_eq_ok.mpr ⟨?_, rfl⟩⟩
  intro position slot foundSlot
  have listed := (List.getElem?_eq_some_iff.mp foundSlot).1
  rw [VarType.length_allSlots] at listed
  refine ⟨?_, Module.checkNewSlot_eq_ok.mpr ⟨?_, by simp [withSlots, slotsStage, declaring], ?_⟩⟩
  · refine (fits.declared slot (List.mem_of_getElem? foundSlot)).of_size ?_ rfl
    simp [withSlots, slotsStage, declaring, partway]
  · intro isWord
    have zero := congrArg (fun id : VarTypeId => id.index.toNat) isWord
    simp only [names] at zero
    simp [VarTypeId.word] at zero
  · -- the slots added so far are fewer than those of the type
    obtain ⟨slots, elements⟩ := type.bare.foldl_addSlot (type.allSlots.take position)
    have counted : ((type.allSlots.take position).foldl VarType.addSlot type.bare).slots =
        position := by
      rw [slots, List.length_take, VarType.length_allSlots, Nat.min_eq_left (Nat.le_of_lt listed)]
      exact Nat.zero_add _
    refine ⟨(type.allSlots.take position).foldl VarType.addSlot type.bare, ?_, ?_, ?_⟩
    · simp only [Module.vtype?, withSlots, slotsStage, declaring, names, Array.getElem?_modify,
        getElem?_partway, found]
      simp
    · rw [counted]
      exact Nat.le_trans listed sized.slots
    · rw [counted, elements]
      exact Nat.lt_of_le_of_lt (Nat.mul_le_mul_left _ listed) sized.total

/-- **What a builder has recorded can be imported**, and leads to the builder. -/
theorem Recorded.ofModule_eq_ok (recorded : builder.Recorded)
    (types : builder.module.vtypes.size < UInt32.size)
    (procs : builder.module.procs.size < UInt32.size) :
    ofModule builder.module = .ok builder := by
  have wellFormed := recorded.wellFormed.module
  have regs := wellFormed.settled_regs
  refine Builder.ofModule_eq_ok.mpr ⟨wellFormed.word, wellFormed.error, _, _, _, _, _,
    (forM_addVarType_eq_ok wellFormed.word).mpr ⟨?_, rfl⟩,
    (forM_replayReg_eq_ok wellFormed.word wellFormed.error).mpr ⟨?_, rfl⟩,
    forM_addProcType_eq_ok.mpr ⟨?_, rfl⟩,
    (forM_replaySlots_eq_ok wellFormed.word types).mpr ⟨?_, rfl⟩,
    forM_addProc_eq_ok.mpr ⟨?_, rfl⟩, ?_⟩
  · intro index type found
    exact (recorded.sized type (Array.mem_of_getElem? found)).payload
  · intro index spec found
    have fits := wellFormed.regs spec (Array.mem_of_getElem? found)
    refine ⟨?_, Module.Admits.strip rfl (Module.admits_of_fits fits)⟩
    have inside := (Array.getElem?_eq_some_iff.mp found).1
    have named := wellFormed.named
    rw [regs, Array.size_extract]
    omega
  · intro index ptype found
    have fits := wellFormed.ptypes ptype (Array.mem_of_getElem? found)
    exact (ProcType.fits_congr regs).mpr fits
  · intro index type found
    have member := Array.mem_of_getElem? found
    exact exists_replaySlots found (wellFormed.vtypes type member) (recorded.sized type member)
      types
  · intro index proc found
    obtain ⟨code, fits⟩ := wellFormed.procs proc (Array.mem_of_getElem? found)
    exact ⟨fits.known, fits.declared⟩
  · rw [regs]
    exact recorded.forM_replayCode procs

end Builder

/-! ### Descriptions that builders hold -/

/-- **Replaying reproduces.** The description that a reachable builder holds can be replayed,
whatever identity it is given out under. This leads to the same tables, without an identity, and to
the same trackers, so that the replayed builder finishes as the original does. -/
theorem replay_reproduces {builder : Builder} (reached : builder.Reachable)
    (types : builder.module.vtypes.size < UInt32.size)
    (procs : builder.module.procs.size < UInt32.size) (id : ModuleId) :
    ∃ replayed, Builder.ofModule { builder.module with id } = .ok replayed ∧
      replayed.module = { builder.module with id := ModuleId.nil } ∧
      replayed.trackers = builder.trackers ∧
      (∀ fresh, Builder.finish fresh replayed = Builder.finish fresh builder) ∧
      ∀ module rest, Builder.finish id builder = .ok module rest →
        Builder.ofModule module = .ok replayed := by
  have recorded := reached.recorded
  have again := recorded.ofModule_eq_ok types procs
  refine ⟨builder, again, ?_, rfl, fun _ => rfl, ?_⟩
  · rw [← recorded.id]
  · intro module rest finished
    obtain ⟨-, rfl, -⟩ := Builder.finish_eq_ok.mp finished
    exact again

/-- There is a register beside the error register. -/
theorem RegId.one_le_maxIndex : 1 ≤ RegId.maxIndex := by decide

/-- The first register that a module declares itself. -/
def Samples.ownReg : RegId := ⟨1, RegId.one_le_maxIndex⟩

/-- Calls that declare and append in turns; a slot is refused once there is an instruction. -/
def Samples.interleavedCalls : List Builder.Call :=
  [.reg VarTypeId.word 0 Flags.empty, .procType entryFlags ownReg, .varType 0 4,
    .nativeSlot ⟨1⟩ ⟨0⟩, .proc Flags.empty ⟨0⟩, .proc Flags.empty ⟨0⟩, .instruction ⟨1⟩ .ret,
    .ownedSlot ⟨1⟩ ⟨1⟩, .reg ⟨1⟩ 3 Flags.empty, .instruction ⟨0⟩ (.dec ownReg),
    .instruction ⟨0⟩ .ret]

/-- A builder after these calls. -/
def Samples.interleavedBuilder : Builder :=
  interleavedCalls.foldl Builder.Call.perform Builder.initial

/-- The builder after these calls is reproduced with both its trackers, although a replay declares
everything before the first instruction. -/
theorem interleaved_reproduced : ∃ replayed,
    Builder.ofModule Samples.interleavedBuilder.module = .ok replayed ∧
      replayed.trackers = Samples.interleavedBuilder.trackers ∧ replayed.trackers.size = 2 := by
  have reached : Samples.interleavedBuilder.Reachable := Builder.Reachable.initial.calls _
  have sizes : Samples.interleavedBuilder.module.vtypes.size = 2 ∧
      Samples.interleavedBuilder.module.procs.size = 2 ∧
      Samples.interleavedBuilder.trackers.size = 2 := by decide +kernel
  obtain ⟨types, procs, trackers⟩ := sizes
  obtain ⟨replayed, imported, -, same, -⟩ := replay_reproduces reached
    (by rw [types]; decide) (by rw [procs]; decide) Samples.interleavedBuilder.module.id
  exact ⟨replayed, imported, same, same ▸ trackers⟩

/-! ### Arbitrary descriptions -/

/-- Settling a count changes nothing else of a register. -/
theorem Module.settleReg_keeps (module : Module) (spec : RegSpec) :
    (module.settleReg spec).vtype = spec.vtype ∧ (module.settleReg spec).init = spec.init := by
  unfold settleReg
  split <;> exact ⟨rfl, rfl⟩

/-- A procedure that is written anew has the bytes and the number of its instructions. -/
theorem ProcDef.reencoded_eq {proc : ProcDef} {code : Array Instruction}
    (decoded : proc.instructions = .ok code) :
    proc.reencoded = ⟨proc.flags, proc.ptype, (Instruction.encodeAll code.toList).toArray,
      UInt32.ofNat code.size⟩ := by
  simp only [ProcDef.reencoded, decoded, ProcDef.foldl_append_blank, Array.length_toList]

/-- Code that is written anew decodes to the same instructions and is not longer. -/
theorem ProcDef.instructions_reencoded {proc : ProcDef} {code : Array Instruction}
    (decoded : proc.instructions = .ok code) :
    proc.reencoded.instructions = .ok code ∧ proc.reencoded.code.size ≤ proc.code.size := by
  rw [ProcDef.reencoded_eq decoded]
  constructor
  · simp only [ProcDef.instructions, Instruction.decodeAll_encodeAll, Array.toArray_toList]
  · have shorter := Instruction.length_encodeAll_le_of_decodeAll decoded
    simpa using shorter

section
variable {given : Module} {builder : Builder} (imported : Builder.ofModule given = .ok builder)
  (types : given.vtypes.size < UInt32.size) (procs : given.procs.size < UInt32.size)
include imported types procs

/-- Registers are imported with the count that their type prescribes. -/
theorem reg_of_ofModule {index : Nat} {spec : RegSpec} (found : given.regs[index]? = some spec) :
    ∃ type, given.vtype? spec.vtype = some type ∧
      (spec.init.isSome = true → type.isDynamic = false) ∧
      builder.module.regs[index]? = some { spec with
        count := if type.isDynamic then spec.count else type.elementCount } := by
  have settled := Builder.module_of_ofModule imported types procs
  have recorded := (Builder.Reachable.ofModule imported).recorded
  have kept : builder.module.regs[index]? = some (given.settleReg spec) := by
    simp [settled, Module.settled, found]
  have lookup : builder.module.vtype? spec.vtype = given.vtype? spec.vtype := by
    simp only [Module.vtype?, settled, Module.settled]
  -- the builder is well-formed, so the type is declared
  have fits := recorded.wellFormed.module.regs _ (Array.mem_of_getElem? kept)
  obtain ⟨sameType, sameInit⟩ := given.settleReg_keeps spec
  obtain ⟨type, foundType, -⟩ := fits.type
  have declared : given.vtype? spec.vtype = some type := by
    rw [← lookup, ← sameType]
    exact foundType
  refine ⟨type, declared, ?_, ?_⟩
  · intro constant
    obtain ⟨init, isInit⟩ := Option.isSome_iff_exists.mp constant
    exact fits.fixed_of_init foundType (sameInit.trans isInit)
  · rw [kept, Module.settleReg_eq declared]
    rfl

/-- Procedures are imported with their instructions, counted anew. -/
theorem proc_of_ofModule {index : Nat} {proc : ProcDef} (found : given.procs[index]? = some proc) :
    ∃ kept code, builder.module.procs[index]? = some kept ∧ kept.flags = proc.flags ∧
      kept.ptype = proc.ptype ∧ proc.instructions = .ok code ∧ kept.instructions = .ok code ∧
      kept.instrCount.toNat = code.size ∧ kept.code.size ≤ proc.code.size := by
  have settled := Builder.module_of_ofModule imported types procs
  have recorded := (Builder.Reachable.ofModule imported).recorded
  obtain ⟨code, decoded⟩ := Builder.exists_instructions_of_ofModule imported proc
    (Array.mem_of_getElem? found)
  have kept : builder.module.procs[index]? = some proc.reencoded := by
    simp [settled, Module.settled, found]
  obtain ⟨decodedAgain, shorter⟩ := ProcDef.instructions_reencoded decoded
  obtain ⟨flags, ptype⟩ :
      proc.reencoded.flags = proc.flags ∧ proc.reencoded.ptype = proc.ptype := by
    simp only [ProcDef.reencoded_eq decoded, and_self]
  refine ⟨proc.reencoded, code, kept, flags, ptype, decoded, decodedAgain, ?_, shorter⟩
  -- the builder counts the instructions that it has recorded, so the count does not overflow
  obtain ⟨counted, fits⟩ := recorded.wellFormed.module.procs _ (Array.mem_of_getElem? kept)
  obtain rfl : code = counted.toArray :=
    Except.ok.inj (decodedAgain.symm.trans fits.decoded)
  exact fits.counted

end

/-- **Importing is faithful.** Whatever the description: if it can be imported, all its types stay
as they are. Registers keep everything but a count that their type prescribes, which is that of the
type from then on, as it is for every constant. Procedures keep their flags, their type and their
instructions, whose number is counted anew, in no more bytes. Importing what was imported changes
nothing any more. -/
theorem import_faithful {given : Module} {builder : Builder}
    (imported : Builder.ofModule given = .ok builder)
    (types : given.vtypes.size < UInt32.size) (procs : given.procs.size < UInt32.size) :
    builder.module.vtypes = given.vtypes ∧ builder.module.ptypes = given.ptypes ∧
      builder.module.regs.size = given.regs.size ∧
      builder.module.procs.size = given.procs.size ∧
      (∀ (index : Nat) (spec : RegSpec), given.regs[index]? = some spec →
        ∃ type, given.vtype? spec.vtype = some type ∧
          (spec.init.isSome = true → type.isDynamic = false) ∧
          builder.module.regs[index]? = some { spec with
            count := if type.isDynamic then spec.count else type.elementCount }) ∧
      (∀ (index : Nat) (proc : ProcDef), given.procs[index]? = some proc →
        ∃ kept code, builder.module.procs[index]? = some kept ∧ kept.flags = proc.flags ∧
          kept.ptype = proc.ptype ∧ proc.instructions = .ok code ∧ kept.instructions = .ok code ∧
          kept.instrCount.toNat = code.size ∧ kept.code.size ≤ proc.code.size) ∧
      Builder.ofModule builder.module = .ok builder := by
  have settled := Builder.module_of_ofModule imported types procs
  have recorded := (Builder.Reachable.ofModule imported).recorded
  have sameTypes : builder.module.vtypes = given.vtypes := by simp only [settled, Module.settled]
  have samePtypes : builder.module.ptypes = given.ptypes := by simp only [settled, Module.settled]
  have regsSize : builder.module.regs.size = given.regs.size := by simp [settled, Module.settled]
  have procsSize : builder.module.procs.size = given.procs.size := by
    simp [settled, Module.settled]
  refine ⟨sameTypes, samePtypes, regsSize, procsSize,
    fun _ _ found => reg_of_ofModule imported types procs found,
    fun _ _ found => proc_of_ofModule imported types procs found, ?_⟩
  exact recorded.ofModule_eq_ok (sameTypes ▸ types) (procsSize ▸ procs)

/-- A description that can be imported although it is sloppy: one register does not tell its number
of elements, a constant tells a wrong one, an operand takes a byte too many, and the number of
instructions is wrong. -/
def Samples.sloppy : Module :=
  ⟨ModuleId.nil, #[VarType.word, ⟨2, 4, #[VarTypeId.word], #[]⟩],
    #[⟨entryFlags, ownReg⟩],
    #[RegSpec.error, ⟨VarTypeId.word, 0, Flags.empty, none⟩,
      ⟨⟨1⟩, 7, RegFlags.persistent, some (Array.replicate 8 0)⟩],
    #[⟨Flags.empty, ⟨0⟩, #[2, 129, 0, 112], 77⟩]⟩

/-- The sloppy description is imported with two elements of the constant and two instructions, and
can be imported again. -/
theorem sloppy_imported : ∃ builder constant kept,
    Builder.ofModule Samples.sloppy = .ok builder ∧
      builder.module.regs[2]? = some constant ∧ constant.count = 2 ∧
      builder.module.procs[0]? = some kept ∧ kept.instrCount.toNat = 2 ∧
      Builder.ofModule builder.module = .ok builder := by
  have succeeds : (Builder.ofModule Samples.sloppy).isOk = true := by decide +kernel
  obtain ⟨builder, imported⟩ : ∃ builder, Builder.ofModule Samples.sloppy = .ok builder := by
    cases ran : Builder.ofModule Samples.sloppy with
    | ok builder => exact ⟨builder, rfl⟩
    | error error =>
        rw [ran] at succeeds
        cases succeeds
  obtain ⟨-, -, -, -, regs, procs, again⟩ := import_faithful imported (by decide) (by decide)
  obtain ⟨type, declared, -, constant⟩ := regs 2 _ rfl
  cases declared
  obtain ⟨kept, code, foundKept, -, -, decoded, -, counted, -⟩ := procs 0 _ rfl
  have sizes : (Instruction.decodeAll [2, 129, 0, 112]).toOption.map Array.size = some 2 := by
    decide +kernel
  have size : code.size = 2 := by
    rw [show Instruction.decodeAll [2, 129, 0, 112] = .ok code from decoded] at sizes
    exact Option.some.inj sizes
  exact ⟨builder, _, kept, imported, constant, rfl, foundKept, counted.trans size, again⟩

end ScopeMachine
