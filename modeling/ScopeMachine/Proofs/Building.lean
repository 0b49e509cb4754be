import ScopeMachine.Builder
import ScopeMachine.Proofs.Sequencing

/-! # What building can do

A builder is used by any sequence of calls, some of which fail. Whatever the call, it leaves the
builder as it was, or makes one of a few changes, each after its check has passed.

* `RegSpec.Fits` and `ProcType.Fits` say what the checks of declarations establish;
* `Builder.Change` lists the changes, and `Builder.Call.change` says that each call makes one;
* `Builder.Reachable` holds of the builders that come about by calls or by replaying a description;
* `Builder.Reachable.holds` proves a property of them all from what each change does to it. -/

namespace ScopeMachine

/-! ### What the checks establish -/

/-- A register declaration that fits the declared types. -/
structure RegSpec.Fits (module : Module) (spec : RegSpec) : Prop where
  /-- Every flag has a name. -/
  known : spec.flags.isKnown = true
  /-- The register is not both persistent and thread-local. -/
  exclusive : spec.flags.contains (RegFlags.persistent.union RegFlags.threadLocal) = false
  /-- Its type is declared and agrees with the number of elements and the initial payload. -/
  type : ∃ type, module.vtype? spec.vtype = some type ∧
    (type.isDynamic = false → spec.count = type.elementCount) ∧
    spec.count.toNat * type.elementBytes.toNat < UInt32.size ∧
    ∀ init, spec.init = some init → spec.flags = RegFlags.persistent ∧
      type.isDynamic = false ∧ init.size = spec.count.toNat * type.elementBytes.toNat

/-- The declaration with the number of elements that its type prescribes, if it prescribes one. -/
def RegSpec.settle (spec : RegSpec) (type : VarType) : RegSpec :=
  { spec with count := if type.isDynamic then spec.count else type.elementCount }

/-- A procedure type that fits the declared registers. -/
structure ProcType.Fits (module : Module) (ptype : ProcType) : Prop where
  /-- Every flag has a name. -/
  known : ptype.flags.isKnown = true
  /-- The procedures can be called. -/
  callable : ptype.flags.isEmpty = false
  /-- The argument is not in a register of the machine itself. -/
  unreserved : ptype.io.isReserved = false
  /-- The argument is in a declared register that is not static. -/
  io : ∃ spec, module.reg? ptype.io = some spec ∧ RegFlags.isStatic spec.flags = false

/-- The number of reference slots of one element. -/
def VarType.slots (type : VarType) : Nat := type.ownedRefs.size + type.nativeRefs.size

/-- An instruction may stand at a position of a procedure, as far as its scopes are not asked. -/
structure Instruction.Appendable (module : Module) (position : Nat) (instruction : Instruction) :
    Prop where
  /-- It does not jump to before the first instruction. -/
  lands : instruction.isJump = true → (instruction.jumpTarget? position).isSome = true
  /-- Its position can be counted. -/
  room : position + 1 < UInt32.size
  /-- Its operands pass the check. -/
  operands : module.checkOperands instruction = .ok ()

/-- There is an identifier for a register exactly if its index is in range. -/
theorem RegId.ofIndex_eq_ok {index : Nat} {reg : RegId} :
    RegId.ofIndex index = .ok reg ↔ index ≤ RegId.maxIndex ∧ reg.index = index := by
  unfold RegId.ofIndex RegId.ofIndex?
  split
  next found =>
    split at found
    next inRange =>
      cases found
      rw [Except.ok.injEq]
      exact ⟨by rintro rfl; exact ⟨inRange, rfl⟩, fun same => RegId.ext_index same.2.symm⟩
    next => cases found
  next missing =>
    split at missing
    next => cases missing
    next outside => simp [outside]

namespace Module

variable {module : Module} {vtype : VarTypeId} {spec : RegSpec}

/-- **The check of a register declaration.** It settles the number of elements, and passes if the
result fits and a number that was asked for is the one that the type prescribes. -/
theorem checkReg_eq_ok {count : UInt32} {flags : RegFlags} :
    module.checkReg vtype count flags = .ok spec ↔
      ∃ type, module.vtype? vtype = some type ∧
        (type.isDynamic = false → count = 0 ∨ count = type.elementCount) ∧
        spec = RegSpec.settle ⟨vtype, count, flags, none⟩ type ∧ spec.Fits module := by
  unfold checkReg
  constructor
  · intro checked
    obtain ⟨known, checked⟩ := guarded_eq_ok.mp checked
    obtain ⟨exclusive, checked⟩ := guarded_eq_ok.mp checked
    obtain ⟨type, declared, checked⟩ := bind_eq_ok.mp checked
    obtain ⟨agrees, checked⟩ := guarded_eq_ok.mp checked
    obtain ⟨small, checked⟩ := guarded_eq_ok.mp checked
    obtain rfl := Except.ok.inj checked
    have found := orError_eq_ok.mp declared
    refine ⟨type, found, ?_, rfl, ?_, ?_, type, found, ?_, Nat.lt_of_not_le small, by simp⟩
    · intro fixed
      simp only [fixed, Bool.not_false, Bool.true_and, Bool.and_eq_true, bne_iff_ne, ne_eq,
        not_and, Decidable.not_not] at agrees
      exact Decidable.or_iff_not_imp_left.mpr agrees
    · simpa using known
    · simpa using exclusive
    · intro fixed
      simp [fixed]
  · rintro ⟨type, found, agrees, rfl, fits⟩
    obtain ⟨same, foundSame, -, small, -⟩ := fits.type
    have isType : same = type := Option.some.inj (foundSame.symm.trans found)
    subst isType
    have known : flags.isKnown = true := fits.known
    have exclusive : flags.contains (RegFlags.persistent.union RegFlags.threadLocal) = false :=
      fits.exclusive
    refine guarded_eq_ok.mpr ⟨by simpa using known, ?_⟩
    refine guarded_eq_ok.mpr ⟨by simpa using exclusive, ?_⟩
    refine bind_eq_ok.mpr ⟨same, orError_eq_ok.mpr found, ?_⟩
    refine guarded_eq_ok.mpr ⟨?_, guarded_eq_ok.mpr ⟨Nat.not_le.mpr small, rfl⟩⟩
    cases fixed : same.isDynamic with
    | true => simp
    | false => rcases agrees fixed with rfl | rfl <;> simp

/-- **The check of a constant**, whose number of elements is always that of its type. -/
theorem checkConstReg_eq_ok {init : Array UInt8} :
    module.checkConstReg vtype init = .ok spec ↔
      ∃ type, module.vtype? vtype = some type ∧
        spec = ⟨vtype, type.elementCount, RegFlags.persistent, some init⟩ ∧ spec.Fits module := by
  unfold checkConstReg
  constructor
  · intro checked
    obtain ⟨plain, checkedPlain, checked⟩ := bind_eq_ok.mp checked
    obtain ⟨type, declared, checked⟩ := bind_eq_ok.mp checked
    obtain ⟨notDynamic, checked⟩ := guarded_eq_ok.mp checked
    obtain ⟨size, checked⟩ := guarded_eq_ok.mp checked
    obtain rfl := Except.ok.inj checked
    obtain ⟨same, foundSame, -, rfl, fits⟩ := checkReg_eq_ok.mp checkedPlain
    -- the type is looked up twice, for the plain declaration and for the payload
    have found := orError_eq_ok.mp declared
    have isType : same = type := Option.some.inj (foundSame.symm.trans found)
    subst isType
    have fixed : same.isDynamic = false := by simpa using notDynamic
    have settled : (RegSpec.settle ⟨vtype, 0, RegFlags.persistent, none⟩ same).count =
        same.elementCount := by simp [RegSpec.settle, fixed]
    obtain ⟨_, foundType, count, small, -⟩ := fits.type
    have isSame := Option.some.inj (foundType.symm.trans found)
    subst isSame
    refine ⟨_, found, by simp [RegSpec.settle, fixed], fits.known, fits.exclusive, _, found, count,
      small, ?_⟩
    intro given isGiven
    obtain rfl := Option.some.inj isGiven
    refine ⟨rfl, fixed, ?_⟩
    show init.size = (RegSpec.settle ⟨vtype, 0, RegFlags.persistent, none⟩ _).count.toNat * _
    rw [settled]
    exact Decidable.not_not.mp size
  · rintro ⟨type, found, rfl, fits⟩
    obtain ⟨same, foundSame, count, small, payload⟩ := fits.type
    have isType : same = type := Option.some.inj (foundSame.symm.trans found)
    subst isType
    obtain ⟨-, fixed, size⟩ := payload init rfl
    have plain : module.checkReg vtype 0 RegFlags.persistent =
        .ok ⟨vtype, same.elementCount, RegFlags.persistent, none⟩ := by
      refine checkReg_eq_ok.mpr ⟨same, found, fun _ => .inl rfl, ?_, ?_⟩
      · simp [RegSpec.settle, fixed]
      · exact ⟨fits.known, fits.exclusive, same, found, fun _ => rfl, small, by simp⟩
    refine bind_eq_ok.mpr ⟨_, plain, bind_eq_ok.mpr ⟨same, orError_eq_ok.mpr found, ?_⟩⟩
    refine guarded_eq_ok.mpr ⟨by simp [fixed], guarded_eq_ok.mpr ⟨?_, rfl⟩⟩
    exact Decidable.not_not.mpr size

/-- **The check of a procedure type.** -/
theorem checkProcType_eq_ok {flags : ProcTypeFlags} {io : RegId} :
    module.checkProcType flags io = .ok () ↔ ProcType.Fits module ⟨flags, io⟩ := by
  unfold checkProcType
  constructor
  · intro checked
    obtain ⟨named, checked⟩ := guarded_eq_ok.mp checked
    obtain ⟨unreserved, checked⟩ := guarded_eq_ok.mp checked
    obtain ⟨spec, declared, checked⟩ := bind_eq_ok.mp checked
    rw [Bool.or_eq_true, not_or] at named
    refine ⟨by simpa using named.1, by simpa using named.2, by simpa using unreserved, spec,
      orError_eq_ok.mp declared, ?_⟩
    split at checked
    · cases checked
    next notStatic => simpa using notStatic
  · intro fits
    obtain ⟨spec, found, notStatic⟩ := fits.io
    have known := fits.known
    have callable := fits.callable
    have unreserved := fits.unreserved
    refine guarded_eq_ok.mpr ⟨by simp_all, guarded_eq_ok.mpr ⟨by simp_all, ?_⟩⟩
    refine bind_eq_ok.mpr ⟨spec, orError_eq_ok.mpr found, ?_⟩
    rw [if_neg (by rw [notStatic]; decide)]
    rfl

/-- **The check of a procedure.** -/
theorem checkProc_eq_ok {flags : ProcFlags} {ptype : ProcTypeId} :
    module.checkProc flags ptype = .ok () ↔
      flags.isKnown = true ∧ (module.ptype? ptype).isSome = true := by
  unfold checkProc
  constructor
  · intro checked
    obtain ⟨known, checked⟩ := guarded_eq_ok.mp checked
    obtain ⟨type, declared, -⟩ := bind_eq_ok.mp checked
    exact ⟨by simpa using known, Option.isSome_iff_exists.mpr ⟨type, orError_eq_ok.mp declared⟩⟩
  · rintro ⟨known, declared⟩
    obtain ⟨type, found⟩ := Option.isSome_iff_exists.mp declared
    exact guarded_eq_ok.mpr
      ⟨by simpa using known, bind_eq_ok.mpr ⟨type, orError_eq_ok.mpr found, rfl⟩⟩

/-- Shapes are not frozen as long as no procedure has an instruction. -/
theorem any_instrCount_eq_false : (module.procs.any fun proc => 0 < proc.instrCount) = false ↔
    ∀ proc ∈ module.procs, proc.instrCount.toNat = 0 := by
  simp only [Array.any_eq_false', decide_eq_true_eq, UInt32.lt_iff_toNat_lt, UInt32.toNat_zero,
    Nat.not_lt, Nat.le_zero]

/-- **The check of a new slot.** Slots are added to declared types other than the word type, only
before the first instruction, and as long as they can be counted. -/
theorem checkNewSlot_eq_ok :
    module.checkNewSlot vtype = .ok () ↔
      vtype ≠ VarTypeId.word ∧ (∀ proc ∈ module.procs, proc.instrCount.toNat = 0) ∧
        ∃ type, module.vtype? vtype = some type ∧
          type.slots + 1 ≤ Builder.maxReferenceSlots ∧
          max type.elementCount.toNat 1 * (type.slots + 1) < UInt32.size := by
  rw [← any_instrCount_eq_false]
  unfold checkNewSlot
  constructor
  · intro checked
    obtain ⟨notWord, checked⟩ := guarded_eq_ok.mp checked
    obtain ⟨type, declared, checked⟩ := bind_eq_ok.mp checked
    obtain ⟨unfrozen, checked⟩ := guarded_eq_ok.mp checked
    refine ⟨notWord, by simpa using unfrozen, type, orError_eq_ok.mp declared, ?_⟩
    dsimp only at checked
    split at checked
    · cases checked
    next counted => exact ⟨by unfold VarType.slots; omega, by unfold VarType.slots; omega⟩
  · rintro ⟨notWord, unfrozen, type, found, slots, total⟩
    refine guarded_eq_ok.mpr ⟨notWord, bind_eq_ok.mpr ⟨type, orError_eq_ok.mpr found, ?_⟩⟩
    refine guarded_eq_ok.mpr ⟨by simpa using unfrozen, ?_⟩
    unfold VarType.slots at slots total
    rw [if_neg (by omega)]
    rfl

end Module

/-! ### Changes -/

namespace Builder

/-- The builder after a call, successful or not. -/
def after {α : Type} (builder : Builder) (action : Build α) : Builder :=
  match action builder with
  | .ok _ changed => changed
  | .error _ changed => changed

/-- What one call can do to a builder. -/
inductive Change (builder : Builder) : Builder → Prop
  /-- It leaves the builder as it was. -/
  | same : Change builder builder
  /-- It declares a variable type. -/
  | varType {count bytes : UInt32} (fits : count.toNat * bytes.toNat < UInt32.size) :
      Change builder
        { builder with
          module := { builder.module with
            vtypes := builder.module.vtypes.push (VarType.plain count bytes) } }
  /-- It adds an owned slot to a variable type. -/
  | ownedSlot {vtype target : VarTypeId}
      (declared : (builder.module.vtype? target).isSome = true)
      (allowed : builder.module.checkNewSlot vtype = .ok ()) :
      Change builder
        { builder with
          module := { builder.module with
            vtypes := builder.module.vtypes.modify vtype.index.toNat fun type =>
              { type with ownedRefs := type.ownedRefs.push target } } }
  /-- It adds a native slot to a variable type. -/
  | nativeSlot {vtype : VarTypeId} {ptype : ProcTypeId}
      (declared : (builder.module.ptype? ptype).isSome = true)
      (allowed : builder.module.checkNewSlot vtype = .ok ()) :
      Change builder
        { builder with
          module := { builder.module with
            vtypes := builder.module.vtypes.modify vtype.index.toNat fun type =>
              { type with nativeRefs := type.nativeRefs.push ptype } } }
  /-- It declares a register. -/
  | reg {spec : RegSpec} (fits : spec.Fits builder.module)
      (room : builder.module.regs.size ≤ RegId.maxIndex) :
      Change builder
        { builder with
          module := { builder.module with regs := builder.module.regs.push spec } }
  /-- It declares a procedure type. -/
  | procType {ptype : ProcType} (fits : ptype.Fits builder.module) :
      Change builder
        { builder with
          module := { builder.module with ptypes := builder.module.ptypes.push ptype } }
  /-- It declares a procedure. -/
  | proc {flags : ProcFlags} {ptype : ProcTypeId} (known : flags.isKnown = true)
      (declared : (builder.module.ptype? ptype).isSome = true) :
      Change builder
        ⟨{ builder.module with
            procs := builder.module.procs.push (ProcDef.empty flags ptype) },
          builder.trackers.push Tracker.empty⟩
  /-- It appends an instruction to a procedure. -/
  | instruction {proc : ProcId} {instruction : Instruction} {update : Tracker.Update}
      (checked : builder.checkInstruction proc instruction = .ok update) :
      Change builder
        ⟨{ builder.module with
            procs := builder.module.procs.modify proc.index.toNat (·.append instruction) },
          builder.trackers.modify proc.index.toNat (·.apply update)⟩
  /-- It gives the module out and starts anew. -/
  | finish (verified : verifyModule builder.module = .ok ()) : Change builder initial

/-- **The check of an instruction.** It is appended to a declared procedure that has room for it,
after its operands and its scopes have been checked. -/
theorem checkInstruction_eq_ok {builder : Builder} {proc : ProcId} {instruction : Instruction}
    {update : Tracker.Update} :
    builder.checkInstruction proc instruction = .ok update ↔
      ∃ context tracker, ScopeContext.of? builder.module proc = some context ∧
        builder.trackers[proc.index.toNat]? = some tracker ∧
        instruction.Appendable builder.module tracker.size ∧
        tracker.check context instruction = .ok update := by
  unfold checkInstruction
  constructor
  · intro checked
    obtain ⟨context, declared, checked⟩ := bind_eq_ok.mp checked
    obtain ⟨tracker, tracked, checked⟩ := bind_eq_ok.mp checked
    obtain ⟨lands, checked⟩ := guarded_eq_ok.mp checked
    obtain ⟨room, checked⟩ := guarded_eq_ok.mp checked
    obtain ⟨_, operands, checked⟩ := bind_eq_ok.mp checked
    refine ⟨context, tracker, orError_eq_ok.mp declared, orError_eq_ok.mp tracked,
      ⟨?_, Nat.lt_of_not_le room, operands⟩, ?_⟩
    · intro isJump
      simpa [isJump, Option.isSome_iff_ne_none] using lands
    · cases admitted : tracker.check context instruction with
      | error violation =>
          rw [admitted] at checked
          cases checked
      | ok found =>
          rw [admitted] at checked
          exact congrArg Except.ok (Except.ok.inj checked)
  · rintro ⟨context, tracker, declared, tracked, appendable, admitted⟩
    refine bind_eq_ok.mpr ⟨context, orError_eq_ok.mpr declared, ?_⟩
    refine bind_eq_ok.mpr ⟨tracker, orError_eq_ok.mpr tracked, ?_⟩
    refine guarded_eq_ok.mpr ⟨?_, guarded_eq_ok.mpr ⟨Nat.not_le.mpr appendable.room, ?_⟩⟩
    · intro leaves
      rw [Bool.and_eq_true] at leaves
      have lands := appendable.lands leaves.1
      rw [Option.isNone_iff_eq_none.mp leaves.2] at lands
      cases lands
    · refine bind_eq_ok.mpr ⟨(), appendable.operands, ?_⟩
      rw [admitted]
      rfl

/-- Exactly a verified module is given out, as it is but for its identity, and the builder starts
anew. -/
theorem finish_eq_ok {builder rest : Builder} {id : ModuleId} {module : Module} :
    finish id builder = .ok module rest ↔
      verifyModule builder.module = .ok () ∧ module = { builder.module with id } ∧
        rest = initial := by
  unfold finish demand
  rw [bind_apply, get_bind_apply]
  cases verifyModule builder.module with
  | error error =>
      constructor
      · intro failed
        cases failed
      · rintro ⟨failed, -⟩
        cases failed
  | ok _ =>
      constructor
      · intro finished
        cases finished
        exact ⟨rfl, rfl, rfl⟩
      · rintro ⟨-, rfl, rfl⟩
        rfl

/-! ### Calls -/

/-- Whether the value of a call is used makes no difference to the builder. -/
theorem after_discard {α : Type} (builder : Builder) (action : Build α) :
    builder.after (discard action) = builder.after action := by
  unfold after
  rw [discard_apply]
  cases action builder <;> rfl

section
variable (builder : Builder)

/-- A check that fails changes nothing, and one that passes leaves the rest to what follows. -/
theorem change_demand {α β : Type} {check : Module → Except Error α} {next : α → Build β}
    (passes : ∀ value, check builder.module = .ok value →
      Change builder (builder.after (next value))) :
    Change builder (builder.after (demand check >>= next)) := by
  unfold after demand
  rw [bind_apply, get_bind_apply]
  cases checked : check builder.module with
  | error error => exact .same
  | ok value => exact passes value checked

/-- Declaring a variable type. -/
theorem change_addVarType (count bytes : UInt32) :
    Change builder (builder.after (addVarType count bytes)) := by
  unfold addVarType
  by_cases large : UInt32.size ≤ count.toNat * bytes.toNat
  · rw [if_pos large]
    exact .same
  · rw [if_neg large]
    exact .varType (Nat.lt_of_not_le large)

/-- Adding an owned slot. -/
theorem change_addOwnedSlot (vtype target : VarTypeId) :
    Change builder (builder.after (addOwnedSlot vtype target)) := by
  unfold addOwnedSlot
  -- target, shape and slot number are checked in this order, before anything is changed
  refine builder.change_demand fun type declared => ?_
  refine builder.change_demand fun _ allowed => builder.change_demand fun slot _ => ?_
  refine .ownedSlot ?_ allowed
  rw [orError_eq_ok.mp declared]
  rfl

/-- Adding a native slot. -/
theorem change_addNativeSlot (vtype : VarTypeId) (ptype : ProcTypeId) :
    Change builder (builder.after (addNativeSlot vtype ptype)) := by
  unfold addNativeSlot
  refine builder.change_demand fun type declared => ?_
  refine builder.change_demand fun _ allowed => builder.change_demand fun slot _ => ?_
  refine .nativeSlot ?_ allowed
  rw [orError_eq_ok.mp declared]
  rfl

/-- Declaring a register whose declaration fits. -/
theorem change_pushReg {spec : RegSpec} (fits : spec.Fits builder.module) :
    Change builder (builder.after (pushReg spec)) := by
  unfold pushReg
  -- there is an identifier for the next register, so the table has room
  exact builder.change_demand fun id named =>
    .reg fits (RegId.ofIndex_eq_ok.mp (liftCodec_eq_ok.mp named)).1

/-- Declaring a register. -/
theorem change_addReg (vtype : VarTypeId) (count : UInt32) (flags : RegFlags) :
    Change builder (builder.after (addReg vtype count flags)) := by
  unfold addReg
  refine builder.change_demand fun spec checked => builder.change_pushReg ?_
  obtain ⟨-, -, -, -, fits⟩ := Module.checkReg_eq_ok.mp checked
  exact fits

/-- Declaring a constant. -/
theorem change_addConstReg (vtype : VarTypeId) (init : Array UInt8) :
    Change builder (builder.after (addConstReg vtype init)) := by
  unfold addConstReg
  refine builder.change_demand fun spec checked => builder.change_pushReg ?_
  obtain ⟨-, -, -, fits⟩ := Module.checkConstReg_eq_ok.mp checked
  exact fits

/-- Declaring a procedure type. -/
theorem change_addProcType (flags : ProcTypeFlags) (io : RegId) :
    Change builder (builder.after (addProcType flags io)) := by
  unfold addProcType
  exact builder.change_demand fun _ checked => .procType (Module.checkProcType_eq_ok.mp checked)

/-- Declaring a procedure. -/
theorem change_addProc (flags : ProcFlags) (ptype : ProcTypeId) :
    Change builder (builder.after (addProc flags ptype)) := by
  unfold addProc
  refine builder.change_demand fun _ checked => ?_
  obtain ⟨known, declared⟩ := Module.checkProc_eq_ok.mp checked
  exact .proc known declared

/-- Appending an instruction. -/
theorem change_addInstruction (proc : ProcId) (instruction : Instruction) :
    Change builder (builder.after (addInstruction proc instruction)) := by
  unfold addInstruction after
  rw [get_bind_apply]
  cases checked : builder.checkInstruction proc instruction with
  | error error => exact .same
  | ok update => exact .instruction checked

/-- Finishing. -/
theorem change_finish (id : ModuleId) : Change builder (builder.after (finish id)) := by
  unfold finish
  exact builder.change_demand fun _ verified => .finish verified

end

/-- A call of a builder, with its arguments. -/
inductive Call where
  /-- Declare a variable type. -/
  | varType (count bytes : UInt32)
  /-- Add an owned slot to a variable type. -/
  | ownedSlot (vtype target : VarTypeId)
  /-- Add a native slot to a variable type. -/
  | nativeSlot (vtype : VarTypeId) (ptype : ProcTypeId)
  /-- Declare a register. -/
  | reg (vtype : VarTypeId) (count : UInt32) (flags : RegFlags)
  /-- Declare a persistent register with an initial payload. -/
  | constReg (vtype : VarTypeId) (init : Array UInt8)
  /-- Declare a procedure type. -/
  | procType (flags : ProcTypeFlags) (io : RegId)
  /-- Declare a procedure. -/
  | proc (flags : ProcFlags) (ptype : ProcTypeId)
  /-- Append an instruction. -/
  | instruction (proc : ProcId) (instruction : Instruction)
  /-- Finish the module. -/
  | finish (id : ModuleId)

/-- The builder after a call, successful or not. -/
def Call.perform (builder : Builder) : Call → Builder
  | varType count bytes => builder.after (addVarType count bytes)
  | ownedSlot vtype target => builder.after (addOwnedSlot vtype target)
  | nativeSlot vtype ptype => builder.after (addNativeSlot vtype ptype)
  | reg vtype count flags => builder.after (addReg vtype count flags)
  | constReg vtype init => builder.after (addConstReg vtype init)
  | procType flags io => builder.after (addProcType flags io)
  | proc flags ptype => builder.after (addProc flags ptype)
  | instruction target appended => builder.after (addInstruction target appended)
  | finish id => builder.after (Builder.finish id)

/-- **Every call makes one of the changes**, or none. -/
theorem Call.change (builder : Builder) (call : Call) : Change builder (call.perform builder) := by
  cases call with
  | varType count bytes => exact builder.change_addVarType count bytes
  | ownedSlot vtype target => exact builder.change_addOwnedSlot vtype target
  | nativeSlot vtype ptype => exact builder.change_addNativeSlot vtype ptype
  | reg vtype count flags => exact builder.change_addReg vtype count flags
  | constReg vtype init => exact builder.change_addConstReg vtype init
  | procType flags io => exact builder.change_addProcType flags io
  | proc flags ptype => exact builder.change_addProc flags ptype
  | instruction target appended => exact builder.change_addInstruction target appended
  | finish id => exact builder.change_finish id

/-! ### Reachable builders -/

/-- The builders that come about by any sequence of calls, successful or not, from a fresh builder
or from a description that has been replayed. -/
inductive Reachable : Builder → Prop
  /-- A fresh builder. -/
  | initial : Reachable initial
  /-- A builder from a description. -/
  | ofModule {description : Module} {builder : Builder}
      (replayed : Builder.ofModule description = .ok builder) : Reachable builder
  /-- A builder after one more call. -/
  | call {builder : Builder} (reached : Reachable builder) (call : Call) :
      Reachable (call.perform builder)

/-- Any sequence of calls leads to a reachable builder. -/
theorem Reachable.calls {builder : Builder} (reached : Reachable builder) (calls : List Call) :
    Reachable (calls.foldl Call.perform builder) := by
  induction calls generalizing builder with
  | nil => exact reached
  | cons call calls ih => exact ih (.call reached call)

/-- An action that keeps a property of builders, also when it fails. -/
def Keeps {α : Type} (invariant : Builder → Prop) (action : Build α) : Prop :=
  ∀ builder, invariant builder → invariant (builder.after action)

section
variable {α β : Type} {invariant : Builder → Prop}

/-- An action that makes a change keeps what changes keep. -/
theorem keeps_of_change
    (step : ∀ {before after}, Change before after → invariant before → invariant after)
    {action : Build α} (change : ∀ builder, Change builder (builder.after action)) :
    Keeps invariant action := fun builder held => step (change builder) held

/-- A failure changes nothing. -/
theorem keeps_throw (error : Error) : Keeps invariant (throw error : Build α) :=
  fun _ held => held

/-- One action after the other. -/
theorem Keeps.bind {first : Build α} {second : α → Build β} (keepsFirst : Keeps invariant first)
    (keepsSecond : ∀ value, Keeps invariant (second value)) :
    Keeps invariant (first >>= second) := by
  intro builder held
  -- also after a failure of the first the builder is one that it has kept the property of
  have heldMiddle := keepsFirst builder held
  unfold after at heldMiddle ⊢
  rw [bind_apply]
  cases ran : first builder with
  | error error middle =>
      rw [ran] at heldMiddle
      exact heldMiddle
  | ok value middle =>
      rw [ran] at heldMiddle
      exact keepsSecond value middle heldMiddle

/-- An action whose value is not used. -/
theorem Keeps.discard {action : Build α} (keeps : Keeps invariant action) :
    Keeps invariant (Functor.discard action) := by
  intro builder held
  rw [after_discard]
  exact keeps builder held

/-- The same action for every member of a list. -/
theorem keeps_forM {action : α → Build PUnit} (items : List α)
    (keeps : ∀ item, Keeps invariant (action item)) : Keeps invariant (items.forM action) := by
  induction items with
  | nil => exact fun _ held => held
  | cons item items ih => exact (keeps item).bind fun _ => ih

/-- A demand, and what follows it. -/
theorem keeps_guarded {condition : Prop} [Decidable condition] {error : Error}
    {next : Unit → Build α} (keeps : Keeps invariant (next ())) :
    Keeps invariant (if condition then throw error >>= next else next ()) := by
  by_cases fails : condition
  · rw [if_pos fails]
    exact fun _ held => held
  · rw [if_neg fails]
    exact keeps

variable (step : ∀ {before after}, Change before after → invariant before → invariant after)
include step

/-- Replaying a register. -/
theorem keeps_replayReg (spec : RegSpec) : Keeps invariant (replayReg spec) := by
  unfold replayReg
  cases spec.init with
  | none => exact keeps_of_change step fun builder => builder.change_addReg _ _ _
  | some init =>
      by_cases persistent : spec.flags = RegFlags.persistent
      · dsimp only
        rw [if_pos persistent]
        exact keeps_of_change step fun builder => builder.change_addConstReg _ _
      · dsimp only
        rw [if_neg persistent]
        exact keeps_throw _

/-- Replaying the slots of a type. -/
theorem keeps_replaySlots (id : VarTypeId) (type : VarType) :
    Keeps invariant (replaySlots id type) := by
  unfold replaySlots
  refine Keeps.bind (keeps_forM _ fun target => ?_) fun _ => keeps_forM _ fun ptype => ?_
  · exact (keeps_of_change step fun builder => builder.change_addOwnedSlot id target).discard
  · exact (keeps_of_change step fun builder => builder.change_addNativeSlot id ptype).discard

/-- Replaying the instructions of a procedure. -/
theorem keeps_replayCode (id : ProcId) (proc : ProcDef) : Keeps invariant (replayCode id proc) := by
  unfold replayCode
  cases liftCodec proc.instructions with
  | error error => exact keeps_throw error
  | ok code =>
      refine keeps_forM _ fun instruction => Keeps.discard ?_
      exact keeps_of_change step fun builder => builder.change_addInstruction id instruction

/-- **Replaying a description keeps what changes keep.** -/
theorem keeps_replay (description : Module) : Keeps invariant (replay description) := by
  unfold replay
  -- types come first without their slots, which may name types and procedure types declared later
  refine keeps_guarded (keeps_guarded ?_)
  refine Keeps.bind (keeps_forM _ fun type => ?_) fun _ => ?_
  · exact (keeps_of_change step fun builder => builder.change_addVarType _ _).discard
  refine Keeps.bind (keeps_forM _ fun spec => (keeps_replayReg step spec).discard) fun _ => ?_
  refine Keeps.bind (keeps_forM _ fun ptype => ?_) fun _ => ?_
  · exact (keeps_of_change step fun builder => builder.change_addProcType _ _).discard
  refine Keeps.bind (keeps_forM _ fun entry => keeps_replaySlots step _ _) fun _ => ?_
  refine Keeps.bind (keeps_forM _ fun proc => ?_) fun _ => ?_
  · exact (keeps_of_change step fun builder => builder.change_addProc _ _).discard
  exact keeps_forM _ fun entry => keeps_replayCode step _ _

/-- **What holds at the start and is kept by every change holds of all reachable builders.** -/
theorem Reachable.holds (start : invariant Builder.initial) {builder : Builder}
    (reached : Reachable builder) : invariant builder := by
  induction reached with
  | initial => exact start
  | call reached call ih => exact step (call.change _) ih
  | @ofModule description builder replayed =>
      -- a replay is a row of calls on a fresh builder, given out only if none of them fails
      have held := keeps_replay step description Builder.initial start
      unfold Builder.ofModule at replayed
      unfold after at held
      cases ran : replay description Builder.initial with
      | error error failed =>
          rw [ran] at replayed
          cases replayed
      | ok _ built =>
          rw [ran] at replayed held
          cases replayed
          exact held

end

end Builder

end ScopeMachine
