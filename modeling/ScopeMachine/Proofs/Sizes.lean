import ScopeMachine.Proofs.Effects
import ScopeMachine.Proofs.Records

/-! # How large variables can be

The arrays of a variable have a row for each element. Their sizes are checked where a type is
declared, where it gets a slot, where a register is declared, and where a variable is made on
request. Payloads are checked wherever the number of elements is given. Slots are checked against
the number of elements that the type declares, and so only if it declares one.

* `Layout.Small` says what the checks together establish, and `Builder.Recorded.small` says so of
  registers;
* `Store.Issues` says that all new variables are those of registers; `Program.issues_of_compile` and
  `Machine.issues_of_invoke` say so of storage and of calls;
* `allocations_are_small` puts all variables together that are made for a module, and
  `allocation_overflows` shows a register whose variables have too many slots. -/

namespace ScopeMachine

open Machine

/-! ### Checks -/

/-- What is checked of the size of a variable: its payload can be counted, and so can its slots if
the type says how many elements there are. -/
structure Layout.Small (layout : Layout) (count : Nat) : Prop where
  /-- The payload can be counted. -/
  payload : count * layout.elementBytes < UInt32.size
  /-- The slots of one element are few. -/
  width : layout.ownedWidth + layout.nativeWidth ≤ Builder.maxReferenceSlots
  /-- The owned slots can be counted. -/
  owned : layout.fixedCount?.isSome → count * layout.ownedWidth < UInt32.size
  /-- The native slots can be counted. -/
  natives : layout.fixedCount?.isSome → count * layout.nativeWidth < UInt32.size

/-- The slots of a type with a number of elements can be counted. -/
theorem VarType.Sized.small {type : VarType} (sized : type.Sized) {vtype : VarTypeId} {count : Nat}
    (payload : count * type.elementBytes.toNat < UInt32.size) (counts : type.Counts count) :
    Layout.Small ⟨vtype, type⟩ count := by
  -- one kind of slots is no more than both
  have few : (Layout.fixedCount? ⟨vtype, type⟩).isSome → ∀ width, width ≤ type.slots →
      count * width < UInt32.size := by
    intro declares width within
    have fixed : type.isDynamic = false := by
      apply Bool.eq_false_iff.mpr
      intro dynamic
      unfold Layout.fixedCount? Shape.ofType at declares
      rw [dynamic] at declares
      cases declares
    calc count * width ≤ max type.elementCount.toNat 1 * type.slots :=
          Nat.mul_le_mul (counts fixed ▸ Nat.le_max_left _ _) within
      _ < UInt32.size := sized.total
  exact ⟨payload, sized.slots, fun fixed => few fixed _ (Nat.le_add_right _ _),
    fun fixed => few fixed _ (Nat.le_add_left _ _)⟩

namespace Builder

variable {builder : Builder}

/-- **Variables of registers are small.** -/
theorem Recorded.small (recorded : builder.Recorded) {spec : RegSpec} {type : VarType}
    (member : spec ∈ builder.module.regs) (found : builder.module.vtype? spec.vtype = some type) :
    Layout.Small ⟨spec.vtype, type⟩ spec.count.toNat := by
  have fits := recorded.wellFormed.module.regs spec member
  obtain ⟨declared, isDeclared, -, counts⟩ := fits.makes found
  obtain ⟨other, isOther, -, small, -⟩ := fits.type
  cases isDeclared.symm.trans found
  cases isOther.symm.trans found
  exact (recorded.sized type (Array.mem_of_getElem? found)).small small counts

/-- Variables of the registers of a program are small. -/
theorem Recorded.small_of_compiles (recorded : builder.Recorded) {program : Program}
    (compiles : Compiles builder.module program) {slot : RegSlot} (member : slot ∈ program.regs) :
    slot.layout.Small slot.count := by
  obtain ⟨index, found⟩ := Array.getElem?_of_mem member
  obtain ⟨spec, isSpec, resolves⟩ := compiles.reg found
  obtain ⟨type, isType, layout⟩ := resolves.layout
  rw [layout, resolves.count]
  exact recorded.small (Array.mem_of_getElem? isSpec) isType

/-- Variables that are made for a type are small, if their payload is. -/
theorem Recorded.small_of_makes (recorded : builder.Recorded) {layout : Layout} {count : Nat}
    (makes : builder.module.Makes layout count)
    (payload : count * layout.elementBytes < UInt32.size) : layout.Small count := by
  obtain ⟨vtype, shape⟩ := layout
  obtain ⟨type, isType, rfl, counts⟩ := makes
  exact (recorded.sized type (Array.mem_of_getElem? isType)).small payload counts

end Builder

/-! ### Variables of registers -/

/-- All variables that are new since some time are those of registers of a program. -/
structure Store.Issues (program : Program) (base store : Store) : Prop where
  /-- Identities stay given out. -/
  grows : base.next ≤ store.next
  /-- New variables are those of registers. -/
  stems : ∀ {id : VarId} {var : Variable}, base.next ≤ id → store.get? id = some var →
    ∃ slot ∈ program.regs, var.layout = slot.layout ∧ var.count = slot.count

namespace Store

variable {program : Program} {base store : Store}

/-- Nothing is new. -/
theorem issues_refl (program : Program) (store : Store) : Issues program store store := by
  refine ⟨Nat.le_refl _, ?_⟩
  intro id var unused found
  exact absurd (Slots.lt_next_of_get? found) (Nat.not_lt_of_le unused)

/-- A variable of a register enters. -/
theorem Issues.insert (issues : Issues program base store) {slot : RegSlot}
    (member : slot ∈ program.regs) {var : Variable} (layout : var.layout = slot.layout)
    (count : var.count = slot.count) : Issues program base (store.insert var) := by
  refine ⟨?_, ?_⟩
  · rw [Slots.next_insert]
    exact Nat.le_succ_of_le issues.grows
  · intro id other unused found
    rw [Slots.get?_insert] at found
    split at found
    · cases found
      exact ⟨slot, member, layout, count⟩
    · exact issues.stems unused found

/-- A variable is revised. -/
theorem Issues.modify (issues : Issues program base store) {id : VarId}
    {change : Variable → Variable} {Brings : VarId → Prop}
    (revises : ∀ var : Variable, var.Revises (change var) Brings) :
    Issues program base (store.modify id change) := by
  refine ⟨?_, ?_⟩
  · rw [Slots.next_modify]
    exact issues.grows
  · intro other var unused found
    rcases get?_modify_eq_some found with ⟨old, rfl, isOld, rfl⟩ | ⟨-, found⟩
    · rw [(revises old).layout, (revises old).count]
      exact issues.stems unused isOld
    · exact issues.stems unused found

end Store

namespace Program

variable {module : Module} {program : Program} {before middle after : Store}

/-- Compiling registers makes their storage. -/
theorem issues_of_compileRegs {specs : List RegSpec} {slots : List RegSlot}
    (issues : Store.Issues program before middle)
    (compiled : specs.mapM (compileReg module) middle = .ok slots after)
    (members : ∀ slot ∈ slots, slot ∈ program.regs) : Store.Issues program before after := by
  induction specs generalizing slots middle with
  | nil =>
      rw [List.mapM_nil] at compiled
      cases compiled
      exact issues
  | cons spec specs ih =>
      rw [List.mapM_cons] at compiled
      obtain ⟨slot, later, isFirst, compiled⟩ := bind_apply_eq_ok.mp compiled
      obtain ⟨others, last, isRest, compiled⟩ := bind_apply_eq_ok.mp compiled
      cases compiled
      have first : Store.Issues program before later := by
        obtain ⟨type, -, ⟨-, -, isLater⟩ | ⟨-, -, rfl⟩⟩ := compileReg_eq_ok isFirst
        · rw [isLater]
          exact issues.insert (members slot List.mem_cons_self) rfl rfl
        · exact issues
      exact ih first isRest fun other member => members other (List.mem_cons_of_mem _ member)

/-- **Compiling makes variables of registers only.** -/
theorem issues_of_compile {maxCallDepth : Nat}
    (compiled : compile module maxCallDepth before = .ok program after) :
    Store.Issues program before after := by
  obtain ⟨regs, procs, compiledRegs, -, rfl⟩ := compile_eq_ok.mp compiled
  exact issues_of_compileRegs (Store.issues_refl _ before) compiledRegs
    fun slot member => List.mem_toArray.mpr member

end Program

namespace Machine

/-- Registers are given variables of their own, which stay theirs. -/
theorem lasts_issues (program : Program) (base : Store) :
    Lasts (Store.Issues program base) program where
  fresh := fun issues member => issues.insert member rfl rfl
  revised := fun issues revises => issues.modify revises

/-- **Every call makes variables of registers only.** -/
theorem issues_of_invoke (program : Program) (proc : ProcId) (io : VarId) (steps : Nat)
    (store : Store) : Store.Issues program store (invoke program proc io steps store).1.store :=
  (lasts_issues program store).stored_of_invoke (Store.issues_refl program store) proc io steps

end Machine

/-! ### All variables of a module -/

/-- **Allocations are small**, as far as the sizes of types are fixed. Whatever module a builder
gives out: the registers ask for small variables; their storage is small, and so is whatever is
allocated for them during a call; and a variable that is made on request is small. -/
theorem allocations_are_small {builder rest : Builder} {id : ModuleId} {module : Module}
    (reached : builder.Reachable) (finished : Builder.finish id builder = .ok module rest) :
    (∀ spec ∈ module.regs, ∀ type, module.vtype? spec.vtype = some type →
      Layout.Small ⟨spec.vtype, type⟩ spec.count.toNat) ∧
    (∀ maxCallDepth before program compiled,
      Program.compile module maxCallDepth before = .ok program compiled →
      (∀ id var, before.next ≤ id → compiled.get? id = some var → var.layout.Small var.count) ∧
      ∀ proc io steps store id var, Slots.next store ≤ id →
        (invoke program proc io steps store).1.store.get? id = some var →
        var.layout.Small var.count) ∧
    ∀ host key handle vtype count id var, Slots.get? (Host.handles host) key = some handle →
      (host.stage handle.registry handle.module).module? = some module →
      host.store.next ≤ id →
      (host.after (Host.newVariable key vtype count)).store.get? id = some var →
      var.layout.Small var.count := by
  obtain ⟨-, rfl, -⟩ := Builder.finish_eq_ok.mp finished
  have recorded := reached.recorded
  refine ⟨fun spec member type found => recorded.small member found, ?_, ?_⟩
  · intro maxCallDepth before program compiled compile
    have compiles : Compiles builder.module program := (compiles_of_compile compile).1.ofId
    have small : ∀ {base store : Store}, Store.Issues program base store → ∀ id var,
        base.next ≤ id → store.get? id = some var → var.layout.Small var.count := by
      intro base store issues id var unused found
      obtain ⟨slot, member, layout, count⟩ := issues.stems unused found
      rw [layout, count]
      exact recorded.small_of_compiles compiles member
    exact ⟨small (Program.issues_of_compile compile),
      fun proc io steps store => small (issues_of_invoke program proc io steps store)⟩
  · intro host key handle vtype count id var isHandle described unused found
    -- a request that makes no variable brings none that is new
    rcases Host.newVariable_cases isHandle vtype count with
      eases | ⟨module, layout, size, isModule, makes, payload, eases⟩
    · exact absurd (Slots.lt_next_of_get? (eases.found found)) (Nat.not_lt_of_le unused)
    · obtain rfl := Option.some.inj (isModule.symm.trans described)
      have entered : (host.store.insert (Variable.zeroed layout size)).get? id = some var :=
        eases.found found
      rw [Slots.get?_insert] at entered
      split at entered
      · cases entered
        exact recorded.small_of_makes makes payload
      · exact absurd (Slots.lt_next_of_get? entered) (Nat.not_lt_of_le unused)

namespace Samples

/-- The calls that build a module with cabinets: four elements of ten bytes, each with two owned
slots and one native slot. It is called with a cabinet and allocates another. -/
def cabinetCalls : List Builder.Call :=
  [.varType 4 10, .ownedSlot ⟨1⟩ VarTypeId.word, .ownedSlot ⟨1⟩ ⟨1⟩, .reg ⟨1⟩ 0 Flags.empty,
    .procType entryFlags (reg 1), .nativeSlot ⟨1⟩ ⟨0⟩, .reg ⟨1⟩ 0 Flags.empty,
    .proc Flags.empty ⟨0⟩, .instruction entry (.als (reg 2)), .instruction entry (.frs (reg 2)),
    .instruction entry .ret]

/-- A builder after these calls. -/
def cabinetBuilder : Builder := cabinetCalls.foldl Builder.Call.perform Builder.initial

/-- The type of cabinets. -/
def cabinetType : VarType := ⟨4, 10, #[VarTypeId.word, ⟨1⟩], #[⟨0⟩]⟩

/-- A cabinet. -/
def cabinets : Store := Slots.empty.insert (Variable.zeroed ⟨⟨1⟩, cabinetType⟩ 4)

end Samples

/-- A cabinet is declared, and behind the error word one is allocated for a call: its 40 bytes, its
eight owned slots and its four native slots can be counted. -/
theorem cabinet_small : ∃ program compiled machine var,
    Samples.cabinetBuilder.module.vtype? ⟨1⟩ = some Samples.cabinetType ∧
    Layout.Small ⟨⟨1⟩, Samples.cabinetType⟩ 4 ∧
    Program.compile Samples.cabinetBuilder.module 10 Slots.empty = .ok program compiled ∧
    invoke program Samples.entry 0 1 Samples.cabinets = (machine, .running) ∧
    machine.store.get? (Samples.cabinets.next + 1) = some var ∧
    var.payload.size = 40 ∧ var.owned.size = 8 ∧ var.natives.size = 4 ∧
    var.layout.Small var.count := by
  have reached : Samples.cabinetBuilder.Reachable := Builder.Reachable.initial.calls _
  have verified : verifyModule Samples.cabinetBuilder.module = .ok () :=
    toOption_eq_some.mp (by decide +kernel)
  have finished : Builder.finish ModuleId.nil Samples.cabinetBuilder =
      .ok Samples.cabinetBuilder.module Builder.initial :=
    Builder.finish_eq_ok.mpr ⟨verified, by decide +kernel, rfl⟩
  have declared : Samples.cabinetBuilder.module.vtype? ⟨1⟩ = some Samples.cabinetType := by
    decide +kernel
  have isReg : Samples.cabinetBuilder.module.regs[2]? = some ⟨⟨1⟩, 4, Flags.empty, none⟩ := by
    decide +kernel
  have allocates : ((Program.compile Samples.cabinetBuilder.module 10).run' Slots.empty).any
      fun program =>
        let state := invoke program Samples.entry 0 1 Samples.cabinets
        state.2 = .running && (state.1.store.get? (Samples.cabinets.next + 1)).any fun var =>
          var.payload.size = 40 && var.owned.size = 8 && var.natives.size = 4 := by
    decide +kernel
  obtain ⟨program, ran, allocates⟩ := (Option.any_eq_true _ _).mp allocates
  obtain ⟨compiled, compile⟩ := exists_of_run' ran
  obtain ⟨running, found⟩ := Bool.and_eq_true_iff.mp allocates
  obtain ⟨var, isVar, sizes⟩ := (Option.any_eq_true _ _).mp found
  simp only [Bool.and_eq_true, decide_eq_true_eq] at sizes
  obtain ⟨registers, runs, -⟩ := allocations_are_small reached finished
  exact ⟨program, compiled, _, var, declared,
    registers _ (Array.mem_of_getElem? isReg) _ declared, compile,
    Prod.ext rfl (of_decide_eq_true running), isVar, sizes.1.1, sizes.1.2, sizes.2,
    (runs _ _ _ _ compile).2 _ _ _ _ _ var (Nat.le_succ _) isVar⟩

/-! ### A register that asks for too much -/

namespace Samples

/-- The calls that declare a type with two slots for words and any number of elements, and a
register of it with as many elements as can be counted. -/
def wideCalls : List Builder.Call :=
  [.varType 0 0, .ownedSlot ⟨1⟩ VarTypeId.word, .ownedSlot ⟨1⟩ VarTypeId.word,
    .reg ⟨1⟩ 4294967295 Flags.empty]

/-- A builder after these calls. -/
def wideBuilder : Builder := wideCalls.foldl Builder.Call.perform Builder.initial

end Samples

/-- A builder gives out a module with a register whose variables have more slots than can be
counted. -/
theorem allocation_overflows : ∃ program compiled slot, Samples.wideBuilder.Reachable ∧
    Builder.finish ModuleId.nil Samples.wideBuilder =
      .ok Samples.wideBuilder.module Builder.initial ∧
    Program.compile Samples.wideBuilder.module 10 Slots.empty = .ok program compiled ∧
    slot ∈ program.regs ∧ slot.fresh.owned.size = slot.count * slot.layout.ownedWidth ∧
    UInt32.size ≤ slot.count * slot.layout.ownedWidth := by
  have verified : verifyModule Samples.wideBuilder.module = .ok () :=
    toOption_eq_some.mp (by decide +kernel)
  have overflows : ((Program.compile Samples.wideBuilder.module 10).run' Slots.empty).any
      fun program => program.regs.any fun slot =>
        decide (UInt32.size ≤ slot.count * slot.layout.ownedWidth) := by decide +kernel
  obtain ⟨program, ran, overflows⟩ := (Option.any_eq_true _ _).mp overflows
  obtain ⟨compiled, compile⟩ := exists_of_run' ran
  obtain ⟨slot, member, large⟩ := Array.any_eq_true'.mp overflows
  exact ⟨program, compiled, slot, Builder.Reachable.initial.calls _,
    Builder.finish_eq_ok.mpr ⟨verified, by decide +kernel, rfl⟩, compile, member,
    Array.size_replicate, of_decide_eq_true large⟩

end ScopeMachine
