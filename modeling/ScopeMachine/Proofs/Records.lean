import ScopeMachine.Proofs.Safety
import ScopeMachine.Proofs.Tracking

/-! # What a builder records

Instructions are appended at different moments, to a module that goes on growing. Nevertheless a
builder is always in the state that it would be in had all its instructions been appended to the
module as it is now.

* `Tracker.Records` says that code may be appended, instruction by instruction, and what a tracker
  knows after it;
* `VarType.Sized` bounds payloads and slots;
* `Builder.Recorded` is the invariant, and `Builder.Reachable.recorded` says that every reachable
  builder has it;
* `sound_of_reachable` sums up what holds of every reachable builder. -/

namespace ScopeMachine

/-! ### Code that may be appended -/

/-- Instructions that may be appended one after the other, from what one tracker knows to what
another knows. -/
structure Tracker.Records (context : ScopeContext) (before : Tracker) (code : List Instruction)
    (after : Tracker) : Prop where
  /-- Each may stand at its position. -/
  appendable : ∀ {offset : Nat} {instruction : Instruction}, code[offset]? = some instruction →
    instruction.Appendable context.module (before.size + offset)
  /-- Each keeps the scope rules, as far as they are known. -/
  followed : before.follow context code = .ok after

namespace Tracker

variable {context : ScopeContext} {before after : Tracker} {instruction : Instruction}
  {code : List Instruction}

/-- Nothing need be checked before nothing is appended. -/
@[simp] theorem records_nil : before.Records context [] after ↔ after = before := by
  constructor
  · intro records
    exact (Except.ok.inj records.followed).symm
  · rintro rfl
    exact ⟨by simp, rfl⟩

/-- The first instruction is appended, and then the others. -/
theorem records_cons : before.Records context (instruction :: code) after ↔
    ∃ update, instruction.Appendable context.module before.size ∧
      before.check context instruction = .ok update ∧
      (before.apply update).Records context code after := by
  constructor
  · intro records
    obtain ⟨next, extended, followed⟩ := bind_eq_ok.mp (follow_cons.symm.trans records.followed)
    obtain ⟨update, checked, rfl⟩ := extend_eq_ok.mp extended
    have first := records.appendable (show (instruction :: code)[0]? = _ from rfl)
    refine ⟨update, first, checked, ?_, followed⟩
    intro offset other found
    have appendable := records.appendable (show (instruction :: code)[offset + 1]? = _ from found)
    rwa [Builder.size_apply, Nat.add_right_comm, Nat.add_assoc]
  · rintro ⟨update, first, checked, records⟩
    refine ⟨?_, ?_⟩
    · intro offset other found
      cases offset with
      | zero =>
          cases found
          exact first
      | succ offset =>
          have appendable := records.appendable (show code[offset]? = _ from found)
          rwa [Builder.size_apply, Nat.add_right_comm, Nat.add_assoc] at appendable
    · rw [follow_cons]
      exact bind_eq_ok.mpr ⟨_, extend_eq_ok.mpr ⟨update, checked, rfl⟩, records.followed⟩

/-- Code is appended part by part. -/
theorem records_append {done rest : List Instruction} :
    before.Records context (done ++ rest) after ↔
      ∃ middle, before.Records context done middle ∧ middle.Records context rest after := by
  induction done generalizing before with
  | nil => simp
  | cons instruction done ih =>
      simp only [List.cons_append, records_cons, ih]
      constructor
      · rintro ⟨update, first, checked, middle, records, others⟩
        exact ⟨middle, ⟨update, first, checked, records⟩, others⟩
      · rintro ⟨middle, ⟨update, first, checked, records⟩, others⟩
        exact ⟨update, first, checked, middle, records, others⟩

/-- A tracker counts the instructions that were appended. -/
theorem Records.size_eq (records : before.Records context code after) :
    after.size = before.size + code.length := size_follow records.followed

/-- Every instruction that was appended passes the check of its operands. -/
theorem Records.checked (records : before.Records context code after) :
    ∀ instruction ∈ code, context.module.checkOperands instruction = .ok () := by
  intro instruction member
  obtain ⟨offset, found⟩ := List.mem_iff_getElem?.mp member
  exact (records.appendable found).operands

variable {old new : Module} {io : RegId}

/-- **Code may still be appended while the module grows around it**, as long as types keep their
slots or there is no code yet. -/
theorem Records.mono (records : before.Records ⟨old, io⟩ code after) (grows : Module.Grows old new)
    (wellFormed : old.WellFormed) (frozen : Module.KeepsTypes old new ∨ code = []) :
    before.Records ⟨new, io⟩ code after := by
  rcases frozen with types | rfl
  · refine ⟨?_, ?_⟩
    · intro offset instruction found
      have appendable := records.appendable found
      exact ⟨appendable.lands, appendable.room,
        Module.checkOperands_of_grows grows types instruction () appendable.operands⟩
    · rw [← records.followed, eq_comm]
      refine follow_congr (fun instruction member => ?_) before
      exact grows.agree wellFormed (records.checked instruction member) io
  · exact records_nil.mpr (records_nil.mp records)

/-- Code may be appended to both or to neither of two modules with the same declarations. -/
theorem Records.congr (records : before.Records ⟨old, io⟩ code after)
    (same : Module.SameDeclarations old new) : before.Records ⟨new, io⟩ code after where
  appendable := by
    intro offset instruction found
    have appendable := records.appendable found
    refine ⟨appendable.lands, appendable.room, ?_⟩
    rw [← same.checkOperands_eq]
    exact appendable.operands
  followed := by
    rw [← records.followed, eq_comm]
    exact follow_congr (fun instruction _ => same.agree io instruction) before

end Tracker

/-! ### The invariant -/

/-- A variable type whose payload and slots can be counted. -/
structure VarType.Sized (type : VarType) : Prop where
  /-- The payload of all elements. -/
  payload : type.elementCount.toNat * type.elementBytes.toNat < UInt32.size
  /-- The slots of one element. -/
  slots : type.slots ≤ Builder.maxReferenceSlots
  /-- The slots of all elements. -/
  total : max type.elementCount.toNat 1 * type.slots < UInt32.size

/-- A type without slots can be counted if its payload can. -/
theorem VarType.sized_plain {count bytes : UInt32}
    (payload : count.toNat * bytes.toNat < UInt32.size) : (VarType.plain count bytes).Sized where
  payload := payload
  slots := Nat.zero_le _
  total := by simp [VarType.slots, VarType.plain]

/-- The bytes of a procedure are the written form of `code`, and its tracker is the one that
appending `code` to the module leads to. -/
structure ProcDef.Recorded (module : Module) (proc : ProcDef) (tracker : Tracker)
    (code : List Instruction) : Prop where
  /-- The bytes are the written form. -/
  encoded : proc.code.toList = Instruction.encodeAll code
  /-- The code may be appended to a procedure of this type. -/
  records : ∃ type, module.ptype? proc.ptype = some type ∧
    Tracker.empty.Records ⟨module, type.io⟩ code tracker

/-- What holds of a builder: beyond being well-formed, its types can be counted, and the code of
every procedure has been recorded in its tracker. -/
structure Builder.Recorded (builder : Builder) : Prop where
  /-- The builder is well-formed. -/
  wellFormed : builder.WellFormed
  /-- The module has no identity yet. -/
  id : builder.module.id = ModuleId.nil
  /-- Every type can be counted. -/
  sized : ∀ type ∈ builder.module.vtypes, type.Sized
  /-- The code of every procedure has been recorded. -/
  procs : ∀ {index : Nat} {proc : ProcDef} {tracker : Tracker},
    builder.module.procs[index]? = some proc → builder.trackers[index]? = some tracker →
    ∃ code, proc.Recorded builder.module tracker code

/-- Code stays recorded while the module grows, as long as types keep their slots or there is no
code yet. -/
theorem ProcDef.Recorded.mono {old new : Module} {proc : ProcDef} {tracker : Tracker}
    {code : List Instruction} (recorded : proc.Recorded old tracker code)
    (grows : Module.Grows old new) (wellFormed : old.WellFormed)
    (frozen : Module.KeepsTypes old new ∨ code = []) : proc.Recorded new tracker code := by
  obtain ⟨type, found, records⟩ := recorded.records
  exact ⟨recorded.encoded, type, grows.ptype found, records.mono grows wellFormed frozen⟩

namespace Builder

variable {builder : Builder}

/-- A procedure has as many instructions as have been recorded. -/
theorem WellFormed.length_eq (wellFormed : builder.WellFormed) {index : Nat} {proc : ProcDef}
    {tracker : Tracker} {code : List Instruction}
    (found : builder.module.procs[index]? = some proc)
    (tracked : builder.trackers[index]? = some tracker)
    (recorded : proc.Recorded builder.module tracker code) :
    proc.instrCount.toNat = code.length := by
  obtain ⟨type, -, records⟩ := recorded.records
  have size := records.size_eq
  rw [wellFormed.counts tracked found] at size
  simpa [Tracker.size, Tracker.empty] using size

/-! ### Changes keep the invariant -/

/-- A fresh builder has recorded nothing. -/
theorem recorded_initial : initial.Recorded where
  wellFormed := wellFormed_initial
  id := rfl
  sized := by
    intro type member
    rw [initial, Module.initial, Array.mem_singleton] at member
    subst member
    exact VarType.sized_plain (by decide)
  procs := by
    intro index proc tracker found
    cases found

/-- Declarations that leave the procedures alone keep what has been recorded. -/
theorem Recorded.declare (recorded : builder.Recorded) {module : Module}
    (wellFormed : WellFormed ⟨module, builder.trackers⟩)
    (grows : Module.Grows builder.module module)
    (frozen : Module.KeepsTypes builder.module module ∨
      ∀ proc ∈ builder.module.procs, proc.instrCount.toNat = 0)
    (id : module.id = builder.module.id) (procs : module.procs = builder.module.procs)
    (sized : ∀ type ∈ module.vtypes, type ∈ builder.module.vtypes ∨ type.Sized) :
    Recorded ⟨module, builder.trackers⟩ where
  wellFormed := wellFormed
  id := id.trans recorded.id
  sized := by
    intro type member
    exact (sized type member).elim (recorded.sized type) fun sized => sized
  procs := by
    intro index proc tracker found tracked
    have found : builder.module.procs[index]? = some proc := procs ▸ found
    obtain ⟨code, recordedProc⟩ := recorded.procs found tracked
    refine ⟨code, recordedProc.mono grows recorded.wellFormed.module (frozen.imp_right ?_)⟩
    intro empty
    rw [← List.length_eq_zero_iff, ← recorded.wellFormed.length_eq found tracked recordedProc]
    exact empty proc (Array.mem_of_getElem? found)

/-- A new slot is counted before it is added, and nothing has been recorded by then. -/
theorem Recorded.modifyType (recorded : builder.Recorded) {vtype : VarTypeId}
    {change : VarType → VarType} (allowed : builder.module.checkNewSlot vtype = .ok ())
    (wellFormed : WellFormed
      ⟨{ builder.module with
          vtypes := builder.module.vtypes.modify vtype.index.toNat change }, builder.trackers⟩)
    (sizes : ∀ type, (change type).elementCount = type.elementCount ∧
      (change type).elementBytes = type.elementBytes)
    (slots : ∀ type, (change type).slots = type.slots + 1) :
    Recorded
      ⟨{ builder.module with
          vtypes := builder.module.vtypes.modify vtype.index.toNat change }, builder.trackers⟩ := by
  obtain ⟨-, empty, declared, foundDeclared, few, total⟩ := Module.checkNewSlot_eq_ok.mp allowed
  refine recorded.declare wellFormed (Module.grows_modifyType _ sizes) (.inr empty) rfl rfl ?_
  intro type member
  rcases mem_of_mem_modify member with before | ⟨old, found, rfl⟩
  · exact .inl before
  · have isDeclared : old = declared := Option.some.inj (found.symm.trans foundDeclared)
    subst isDeclared
    obtain ⟨count, bytes⟩ := sizes old
    refine .inr ⟨?_, ?_, ?_⟩
    · rw [count, bytes]
      exact (recorded.sized old (Array.mem_of_getElem? found)).payload
    · rw [slots]
      exact few
    · rw [count, slots]
      exact total

/-- A new procedure has nothing recorded. -/
theorem Recorded.pushProc (recorded : builder.Recorded) {flags : ProcFlags} {ptype : ProcTypeId}
    (known : flags.isKnown = true) (declared : (builder.module.ptype? ptype).isSome = true) :
    Recorded
      ⟨{ builder.module with procs := builder.module.procs.push (ProcDef.empty flags ptype) },
        builder.trackers.push Tracker.empty⟩ where
  wellFormed := recorded.wellFormed.pushProc known declared
  id := recorded.id
  sized := recorded.sized
  procs := by
    intro index proc tracker found tracked
    rw [Array.getElem?_push] at found tracked
    rw [recorded.wellFormed.size] at tracked
    by_cases last : index = builder.module.procs.size
    · rw [if_pos last] at found tracked
      cases found
      cases tracked
      obtain ⟨type, foundType⟩ := Option.isSome_iff_exists.mp declared
      exact ⟨[], rfl, type, foundType, Tracker.records_nil.mpr rfl⟩
    · rw [if_neg last] at found tracked
      obtain ⟨code, recordedProc⟩ := recorded.procs found tracked
      refine ⟨code, recordedProc.mono (Module.grows_pushProc _) recorded.wellFormed.module ?_⟩
      exact .inl fun _ _ found => found

/-- An instruction is recorded when it is appended. -/
theorem Recorded.append (recorded : builder.Recorded) {proc : ProcId} {instruction : Instruction}
    {update : Tracker.Update} (checked : builder.checkInstruction proc instruction = .ok update) :
    Recorded
      ⟨{ builder.module with
          procs := builder.module.procs.modify proc.index.toNat (·.append instruction) },
        builder.trackers.modify proc.index.toNat (·.apply update)⟩ := by
  obtain ⟨context, here, isContext, trackedHere, appendable, admitted⟩ :=
    checkInstruction_eq_ok.mp checked
  obtain ⟨io, isIo, rfl⟩ := Option.map_eq_some_iff.mp isContext
  have stays : ∀ {changed tracker code}, ProcDef.Recorded builder.module changed tracker code →
      changed.Recorded _ tracker code := fun recordedProc =>
    recordedProc.mono (Module.grows_append proc.index.toNat instruction)
      recorded.wellFormed.module (.inl fun _ _ found => found)
  refine ⟨recorded.wellFormed.append checked, recorded.id, recorded.sized, ?_⟩
  intro index changed tracker found tracked
  rw [Array.getElem?_modify] at found tracked
  by_cases same : proc.index.toNat = index
  · rw [if_pos same, ← same] at found tracked
    obtain ⟨declared, foundDeclared, rfl⟩ := Option.map_eq_some_iff.mp found
    obtain ⟨before, trackedBefore, rfl⟩ := Option.map_eq_some_iff.mp tracked
    have isHere : here = before := Option.some.inj (trackedHere.symm.trans trackedBefore)
    subst isHere
    obtain ⟨code, recordedProc⟩ := recorded.procs foundDeclared trackedHere
    obtain ⟨type, foundType, records⟩ := recordedProc.records
    -- the context of the check is that of the records so far
    have sameIo : io = type.io := by
      obtain ⟨other, foundOther, hasIo⟩ := Option.bind_eq_some_iff.mp isIo
      obtain rfl : other = declared := Option.some.inj (foundOther.symm.trans foundDeclared)
      rw [foundType] at hasIo
      exact (Option.some.inj hasIo).symm
    subst sameIo
    have appended : Tracker.empty.Records ⟨builder.module, type.io⟩ (code ++ [instruction])
        (here.apply update) :=
      Tracker.records_append.mpr ⟨here, records,
        Tracker.records_cons.mpr ⟨update, appendable, admitted, Tracker.records_nil.mpr rfl⟩⟩
    refine ⟨code ++ [instruction], stays ⟨?_, type, foundType, appended⟩⟩
    show (declared.code ++ instruction.encode).toList = _
    rw [Array.toList_appendList, recordedProc.encoded, Instruction.encodeAll_concat]
  · rw [if_neg same] at found tracked
    obtain ⟨code, recordedProc⟩ := recorded.procs found tracked
    exact ⟨code, stays recordedProc⟩

/-- **Every change keeps what has been recorded.** -/
theorem Change.recorded {after : Builder} (change : Change builder after)
    (recorded : builder.Recorded) : after.Recorded := by
  have wellFormed := change.wellFormed recorded.wellFormed
  cases change with
  | same => exact recorded
  | finish verified => exact recorded_initial
  | proc known declared => exact recorded.pushProc known declared
  | instruction checked => exact recorded.append checked
  | varType fits =>
      refine recorded.declare wellFormed (Module.grows_pushType _)
        (.inl (Module.keepsTypes_pushType _)) rfl rfl ?_
      intro type member
      rcases Array.mem_push.mp member with before | rfl
      · exact .inl before
      · exact .inr (VarType.sized_plain fits)
  | reg fits room =>
      exact recorded.declare wellFormed (Module.grows_pushReg _) (.inl fun _ _ found => found) rfl
        rfl fun _ => .inl
  | procType fits =>
      exact recorded.declare wellFormed (Module.grows_pushProcType _)
        (.inl fun _ _ found => found) rfl rfl fun _ => .inl
  | ownedSlot declared allowed =>
      refine recorded.modifyType allowed wellFormed (fun _ => ⟨rfl, rfl⟩) ?_
      intro type
      simp only [VarType.slots, Array.size_push]
      omega
  | nativeSlot declared allowed =>
      refine recorded.modifyType allowed wellFormed (fun _ => ⟨rfl, rfl⟩) ?_
      intro type
      simp only [VarType.slots, Array.size_push]
      omega

/-- **Every reachable builder has recorded its code.** -/
theorem Reachable.recorded (reached : builder.Reachable) : builder.Recorded :=
  reached.holds Change.recorded recorded_initial

end Builder

/-! ### Reachable builders are sound -/

/-- **Reachable builders are sound.** Whatever calls have been made, and whether they failed or not:
the module is well-formed, payloads can be counted, there is one tracker for each procedure, every
procedure decodes to as many instructions as it and its tracker count, each of which passes the
check against the module as it is now, and the module can be compiled. -/
theorem sound_of_reachable {builder : Builder} (reached : builder.Reachable) :
    builder.module.WellFormed ∧
      (∀ type ∈ builder.module.vtypes,
        type.elementCount.toNat * type.elementBytes.toNat < UInt32.size) ∧
      builder.trackers.size = builder.module.procs.size ∧
      (∀ (index : Nat) (proc : ProcDef), builder.module.procs[index]? = some proc →
        ∃ code tracker, proc.instructions = .ok code ∧ code.size = proc.instrCount.toNat ∧
          builder.trackers[index]? = some tracker ∧ tracker.size = code.size ∧
          ∀ instruction ∈ code, builder.module.checkOperands instruction = .ok ()) ∧
      ∀ maxCallDepth store, ∃ program compiled,
        Program.compile builder.module maxCallDepth store = .ok program compiled := by
  have recorded := reached.recorded
  have wellFormed := recorded.wellFormed
  refine ⟨wellFormed.module, fun type member => (recorded.sized type member).payload,
    wellFormed.size, ?_, wellFormed.module.exists_compile⟩
  intro index proc found
  have inside : index < builder.trackers.size := by
    rw [wellFormed.size]
    exact (Array.getElem?_eq_some_iff.mp found).1
  have tracked := Array.getElem?_eq_getElem inside
  obtain ⟨code, fits⟩ := wellFormed.module.procs proc (Array.mem_of_getElem? found)
  refine ⟨code.toArray, _, fits.decoded, fits.counted.symm, tracked, ?_, ?_⟩
  · rw [wellFormed.counts tracked found, fits.counted]
    rfl
  · intro instruction member
    exact fits.checked instruction (Array.mem_toList_iff.mpr member)

/-- The factorial sample decodes to nine instructions, of which its tracker knows, and compiles. -/
theorem factorial_sound :
    (∃ proc code tracker, Samples.factorialBuilder.module.procs[0]? = some proc ∧
      proc.instructions = .ok code ∧ code.size = 9 ∧
      Samples.factorialBuilder.trackers[0]? = some tracker ∧ tracker.size = 9) ∧
      ∃ program compiled, Program.compile Samples.factorialBuilder.module 10 Samples.three =
        .ok program compiled := by
  have reached : Samples.factorialBuilder.Reachable := Builder.Reachable.initial.calls _
  obtain ⟨-, -, -, procs, compiles⟩ := sound_of_reachable reached
  have counted : Samples.factorialBuilder.module.procs[0]?.map ProcDef.instrCount = some 9 := by
    decide +kernel
  obtain ⟨proc, found, count⟩ := Option.map_eq_some_iff.mp counted
  obtain ⟨code, tracker, decoded, size, tracked, trackedSize, -⟩ := procs 0 proc found
  rw [count] at size
  exact ⟨⟨proc, code, tracker, found, decoded, size, tracked, trackedSize.trans size⟩,
    compiles 10 Samples.three⟩

end ScopeMachine
