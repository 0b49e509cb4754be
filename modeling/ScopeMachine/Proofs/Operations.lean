import ScopeMachine.Proofs.Building

/-! # When operations succeed

For each operation of a builder, when it succeeds and what it then leads to. Operations leave the
builder alone unless they succeed, so this is all there is to know about them.

* `Builder.addVarType_eq_ok`, `Builder.addProcType_eq_ok` and `Builder.addProc_eq_ok` for
  declarations, `Builder.replayReg_eq_ok` for registers as descriptions have them;
* `Slot` puts owned and native slots together, and `Slot.add_eq_ok` is about both;
* `Builder.addInstruction_eq_ok` for instructions. -/

namespace ScopeMachine

/-! ### Declarations -/

/-- The type without its slots. -/
def VarType.bare (type : VarType) : VarType := VarType.plain type.elementCount type.elementBytes

/-- A register as a description has it can be declared: the number of elements is the one that the
type prescribes, or not asked for, and with that number the declaration fits. -/
def Module.Admits (module : Module) (spec : RegSpec) : Prop :=
  ∃ type, module.vtype? spec.vtype = some type ∧
    (spec.init = none → type.isDynamic = false → spec.count = 0 ∨ spec.count = type.elementCount) ∧
    (spec.settle type).Fits module

/-- The declaration of a register with the number of elements that its type prescribes. -/
def Module.settleReg (module : Module) (spec : RegSpec) : RegSpec :=
  match module.vtype? spec.vtype with
  | some type => spec.settle type
  | none => spec

/-- A declared type settles the number of elements. -/
theorem Module.settleReg_eq {module : Module} {spec : RegSpec} {type : VarType}
    (found : module.vtype? spec.vtype = some type) : module.settleReg spec = spec.settle type := by
  simp only [settleReg, found]

/-- Constants have a type that prescribes the number of elements. -/
theorem RegSpec.Fits.fixed_of_init {module : Module} {spec : RegSpec} (fits : spec.Fits module)
    {type : VarType} {init : Array UInt8} (found : module.vtype? spec.vtype = some type)
    (constant : spec.init = some init) : type.isDynamic = false := by
  obtain ⟨other, foundOther, -, -, payload⟩ := fits.type
  obtain rfl : other = type := Option.some.inj (foundOther.symm.trans found)
  exact (payload init constant).2.1

namespace Builder

variable {builder after : Builder}

/-- What follows a check runs on the builder as it is, if the check passes. -/
theorem demand_bind_eq_ok {α β : Type} {check : Module → Except Error α} {next : α → Build β}
    {result : β} : (demand check >>= next) builder = .ok result after ↔
      ∃ value, check builder.module = .ok value ∧ next value builder = .ok result after := by
  unfold demand
  rw [bind_apply, get_bind_apply]
  cases check builder.module with
  | error error =>
      constructor
      · intro failed
        cases failed
      · rintro ⟨_, failed, -⟩
        cases failed
  | ok value =>
      constructor
      · intro ran
        exact ⟨value, rfl, ran⟩
      · rintro ⟨_, same, ran⟩
        cases same
        exact ran

/-- Declaring a variable type. -/
theorem addVarType_eq_ok {count bytes : UInt32} :
    discard (addVarType count bytes) builder = .ok ⟨⟩ after ↔
      count.toNat * bytes.toNat < UInt32.size ∧
        after = { builder with
          module := { builder.module with
            vtypes := builder.module.vtypes.push (VarType.plain count bytes) } } := by
  rw [discard_apply_eq_ok]
  unfold addVarType
  simp only [guarded_apply_eq_ok, Nat.not_le]
  constructor
  · rintro ⟨_, fits, ran⟩
    cases ran
    exact ⟨fits, rfl⟩
  · rintro ⟨fits, rfl⟩
    exact ⟨_, fits, rfl⟩

/-- Declaring a register after a check. -/
theorem declareReg_eq_ok {check : Module → Except Error RegSpec} :
    (∃ id, (demand check >>= pushReg) builder = .ok id after) ↔
      ∃ spec, check builder.module = .ok spec ∧ builder.module.regs.size ≤ RegId.maxIndex ∧
        after = { builder with
          module := { builder.module with regs := builder.module.regs.push spec } } := by
  simp only [pushReg, demand_bind_eq_ok, liftCodec_eq_ok, RegId.ofIndex_eq_ok]
  constructor
  · rintro ⟨_, spec, checked, _, ⟨room, -⟩, ran⟩
    cases ran
    exact ⟨spec, checked, room, rfl⟩
  · rintro ⟨spec, checked, room, rfl⟩
    exact ⟨_, spec, checked, ⟨builder.module.regs.size, room⟩, ⟨room, rfl⟩, rfl⟩

/-- **Declaring a register as a description has it.** -/
theorem replayReg_eq_ok {spec : RegSpec} :
    discard (replayReg spec) builder = .ok ⟨⟩ after ↔
      (builder.module.regs.size ≤ RegId.maxIndex ∧ builder.module.Admits spec) ∧
        after = { builder with
          module := { builder.module with
            regs := builder.module.regs.push (builder.module.settleReg spec) } } := by
  obtain ⟨vtype, count, flags, init⟩ := spec
  rw [discard_apply_eq_ok]
  cases init with
  | none =>
      refine Iff.trans declareReg_eq_ok ?_
      simp only [Module.checkReg_eq_ok]
      constructor
      · rintro ⟨_, ⟨type, found, agrees, rfl, fits⟩, room, rfl⟩
        refine ⟨⟨room, type, found, fun _ => agrees, fits⟩, ?_⟩
        rw [Module.settleReg_eq found]
      · rintro ⟨⟨room, type, found, agrees, fits⟩, rfl⟩
        rw [Module.settleReg_eq found]
        exact ⟨_, ⟨type, found, agrees rfl, rfl, fits⟩, room, rfl⟩
  | some init =>
      by_cases persistent : flags = RegFlags.persistent
      · subst persistent
        -- a constant fits only if its type is not dynamic, so its count is always settled
        have settled : ∀ {type : VarType}, type.isDynamic = false →
            RegSpec.settle ⟨vtype, count, RegFlags.persistent, some init⟩ type =
              ⟨vtype, type.elementCount, RegFlags.persistent, some init⟩ := by
          intro type fixed
          simp [RegSpec.settle, fixed]
        refine Iff.trans declareReg_eq_ok ?_
        simp only [Module.checkConstReg_eq_ok]
        constructor
        · rintro ⟨_, ⟨type, found, rfl, fits⟩, room, rfl⟩
          have same := settled (fits.fixed_of_init found rfl)
          refine ⟨⟨room, type, found, by simp, ?_⟩, ?_⟩
          · rw [same]
            exact fits
          · rw [Module.settleReg_eq found, same]
        · rintro ⟨⟨room, type, found, -, fits⟩, rfl⟩
          have same := settled (fits.fixed_of_init found rfl)
          rw [Module.settleReg_eq found, same]
          exact ⟨_, ⟨type, found, rfl, same ▸ fits⟩, room, rfl⟩
      · constructor
        · rintro ⟨id, ran⟩
          simp only [replayReg, if_neg persistent] at ran
          cases ran
        · rintro ⟨⟨-, type, -, -, fits⟩, -⟩
          obtain ⟨_, -, -, -, payload⟩ := fits.type
          exact absurd (payload init rfl).1 persistent

/-- Declaring a procedure type. -/
theorem addProcType_eq_ok {flags : ProcTypeFlags} {io : RegId} :
    discard (addProcType flags io) builder = .ok ⟨⟩ after ↔
      ProcType.Fits builder.module ⟨flags, io⟩ ∧
        after = { builder with
          module := { builder.module with
            ptypes := builder.module.ptypes.push ⟨flags, io⟩ } } := by
  rw [discard_apply_eq_ok, ← Module.checkProcType_eq_ok]
  simp only [addProcType, demand_bind_eq_ok]
  constructor
  · rintro ⟨_, _, checked, ran⟩
    cases ran
    exact ⟨checked, rfl⟩
  · rintro ⟨checked, rfl⟩
    exact ⟨_, (), checked, rfl⟩

/-- Declaring a procedure. -/
theorem addProc_eq_ok {flags : ProcFlags} {ptype : ProcTypeId} :
    discard (addProc flags ptype) builder = .ok ⟨⟩ after ↔
      (flags.isKnown = true ∧ (builder.module.ptype? ptype).isSome = true) ∧
        after = ⟨{ builder.module with
            procs := builder.module.procs.push (ProcDef.empty flags ptype) },
          builder.trackers.push Tracker.empty⟩ := by
  rw [discard_apply_eq_ok, ← Module.checkProc_eq_ok]
  simp only [addProc, demand_bind_eq_ok]
  constructor
  · rintro ⟨_, _, checked, ran⟩
    cases ran
    exact ⟨checked, rfl⟩
  · rintro ⟨checked, rfl⟩
    exact ⟨_, (), checked, rfl⟩

/-- Appending an instruction. -/
theorem addInstruction_eq_ok {proc : ProcId} {instruction : Instruction} :
    discard (addInstruction proc instruction) builder = .ok ⟨⟩ after ↔
      ∃ update, builder.checkInstruction proc instruction = .ok update ∧
        after = ⟨{ builder.module with
            procs := builder.module.procs.modify proc.index.toNat (·.append instruction) },
          builder.trackers.modify proc.index.toNat (·.apply update)⟩ := by
  rw [discard_apply_eq_ok]
  unfold addInstruction
  rw [get_bind_apply]
  cases builder.checkInstruction proc instruction with
  | error error =>
      constructor
      · rintro ⟨_, failed⟩
        cases failed
      · rintro ⟨_, failed, -⟩
        cases failed
  | ok update =>
      constructor
      · rintro ⟨_, ran⟩
        cases ran
        exact ⟨update, rfl, rfl⟩
      · rintro ⟨_, same, rfl⟩
        cases same
        exact ⟨_, rfl⟩

end Builder

/-! ### Slots -/

/-- A slot of a variable type, owned or native. -/
inductive Slot where
  /-- A slot for a variable. -/
  | owned (target : VarTypeId)
  /-- A slot for a procedure. -/
  | native (ptype : ProcTypeId)

/-- The slots of a type, in the order in which they are replayed. -/
def VarType.allSlots (type : VarType) : List Slot :=
  type.ownedRefs.toList.map .owned ++ type.nativeRefs.toList.map .native

/-- The type with one more slot. -/
def VarType.addSlot (type : VarType) : Slot → VarType
  | .owned target => { type with ownedRefs := type.ownedRefs.push target }
  | .native ptype => { type with nativeRefs := type.nativeRefs.push ptype }

namespace Slot

/-- What a slot refers to is declared. -/
def Declared (module : Module) : Slot → Prop
  | owned target => (module.vtype? target).isSome = true
  | native ptype => (module.ptype? ptype).isSome = true

/-- Add a slot to a type. -/
def add (vtype : VarTypeId) : Slot → Build UInt32
  | owned target => Builder.addOwnedSlot vtype target
  | native ptype => Builder.addNativeSlot vtype ptype

variable {builder after : Builder}

/-- Changing a type after what the slot refers to and the slot itself have been checked. -/
theorem modify_eq_ok {α : Type} {check : Module → Except Error α} {vtype : VarTypeId}
    {count : VarType → Nat} {change : VarType → VarType} :
    (∃ slot, (do
      let _ ← Builder.demand check
      Builder.demand fun module => module.checkNewSlot vtype
      let slot ← Builder.demand fun module => (module.requireVtype vtype).map count
      Builder.updateModule fun module =>
        { module with vtypes := module.vtypes.modify vtype.index.toNat change }
      return UInt32.ofNat slot : Build UInt32) builder = .ok slot after) ↔
      ((∃ value, check builder.module = .ok value) ∧
        builder.module.checkNewSlot vtype = .ok ()) ∧
      after = { builder with
        module := { builder.module with
          vtypes := builder.module.vtypes.modify vtype.index.toNat change } } := by
  simp only [Builder.demand_bind_eq_ok, Module.requireVtype, map_eq_ok, orError_eq_ok]
  constructor
  · rintro ⟨_, value, checked, _, allowed, _, -, ran⟩
    cases ran
    exact ⟨⟨⟨value, checked⟩, allowed⟩, rfl⟩
  · rintro ⟨⟨⟨value, checked⟩, allowed⟩, rfl⟩
    obtain ⟨-, -, type, found, -⟩ := Module.checkNewSlot_eq_ok.mp allowed
    exact ⟨_, value, checked, (), allowed, _, ⟨type, found, rfl⟩, rfl⟩

/-- **Adding a slot.** -/
theorem add_eq_ok {vtype : VarTypeId} {slot : Slot} :
    discard (slot.add vtype) builder = .ok ⟨⟩ after ↔
      (slot.Declared builder.module ∧ builder.module.checkNewSlot vtype = .ok ()) ∧
        after = { builder with
          module := { builder.module with
            vtypes := builder.module.vtypes.modify vtype.index.toNat (·.addSlot slot) } } := by
  rw [discard_apply_eq_ok]
  cases slot with
  | owned target =>
      refine Iff.trans modify_eq_ok ?_
      simp only [Module.requireVtype, orError_eq_ok, Declared, Option.isSome_iff_exists]
      rfl
  | native ptype =>
      refine Iff.trans modify_eq_ok ?_
      simp only [Module.requirePtype, orError_eq_ok, Declared, Option.isSome_iff_exists]
      rfl

end Slot

namespace VarType

/-- A type has as many slots as are listed. -/
theorem length_allSlots (type : VarType) : type.allSlots.length = type.slots := by
  simp [allSlots, slots]

/-- A slot more. -/
theorem slots_addSlot (type : VarType) (slot : Slot) :
    (type.addSlot slot).slots = type.slots + 1 := by
  cases slot <;> simp only [addSlot, slots, Array.size_push] <;> omega

/-- Slots do not change the number of elements. -/
theorem elementCount_addSlot (type : VarType) (slot : Slot) :
    (type.addSlot slot).elementCount = type.elementCount := by
  cases slot <;> rfl

/-- Several slots more. -/
theorem foldl_addSlot (type : VarType) (slots : List Slot) :
    (slots.foldl addSlot type).slots = type.slots + slots.length ∧
      (slots.foldl addSlot type).elementCount = type.elementCount := by
  induction slots generalizing type with
  | nil => exact ⟨rfl, rfl⟩
  | cons slot slots ih =>
      obtain ⟨count, elements⟩ := ih (type.addSlot slot)
      rw [List.foldl_cons, count, elements, slots_addSlot, elementCount_addSlot, List.length_cons]
      exact ⟨by omega, rfl⟩

/-- A type is the bare type with all its slots. -/
theorem foldl_allSlots (type : VarType) : type.allSlots.foldl addSlot type.bare = type := by
  have owned : ∀ (targets : List VarTypeId) (before : VarType),
      (targets.map Slot.owned).foldl addSlot before =
        { before with ownedRefs := before.ownedRefs ++ targets } := by
    intro targets
    induction targets with
    | nil => simp
    | cons target targets ih =>
        intro before
        simp [ih, addSlot]
  have native : ∀ (ptypes : List ProcTypeId) (before : VarType),
      (ptypes.map Slot.native).foldl addSlot before =
        { before with nativeRefs := before.nativeRefs ++ ptypes } := by
    intro ptypes
    induction ptypes with
    | nil => simp
    | cons ptype ptypes ih =>
        intro before
        simp [ih, addSlot]
  rw [allSlots, List.foldl_append, owned, native]
  simp [bare, plain]

end VarType

end ScopeMachine
