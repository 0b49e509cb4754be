import ScopeMachine.Proofs.Bounds
import ScopeMachine.Proofs.Lifecycle
import ScopeMachine.Proofs.WellFormed

/-! # Descriptions from anywhere

A description may come from anywhere, with any identifiers, flags and counts and with any bytes as
code. Replaying it and finishing the module reaches into the tables of the description, of the
builder and of the verifier at positions that the description decides on. With direct access, in the
sense of `Stop`, all of them are inside, and every loop comes to an end.

* `Direct.addOwnedSlot`, `Direct.addNativeSlot` and `Direct.addInstruction` are the operations of a
  builder that reach into its tables, and `Direct.replay` is made of them;
* `Direct.Agrees` says that an operation with direct access does what the one without does, on every
  builder that is well-formed;
* `Direct.rebuild_eq_lift` is the import as a whole. -/

namespace ScopeMachine

namespace Direct

/-! ### Operations on a builder -/

/-- Operations on a builder with direct access. -/
abbrev Build := EStateM (Stop Error) Builder

section
variable {α β : Type}

/-- An operation whose only stops are refusals. -/
def ofBuild (action : ScopeMachine.Build α) : Build α := fun builder =>
  match action builder with
  | .ok value changed => .ok value changed
  | .error error changed => .error (.refused error) changed

/-- Look at the builder. -/
def look (computation : Builder → Except (Stop Error) α) : Build α := fun builder =>
  match computation builder with
  | .ok value => .ok value builder
  | .error stop => .error stop builder

end

/-- Change the type of a declared variable type's elements. -/
def changeType (vtype : VarTypeId) (change : VarType → VarType) : Build VarType := do
  let type ← look fun builder => cell builder.module.vtypes vtype.index.toNat
  let vtypes ← look fun builder =>
    setCell builder.module.vtypes vtype.index.toNat (change type)
  modify fun builder => { builder with module := { builder.module with vtypes } }
  return type

/-- Add an owned slot to every element of a variable type. -/
def addOwnedSlot (vtype target : VarTypeId) : Build UInt32 := do
  let _ ← ofBuild (Builder.demand fun module => module.requireVtype target)
  ofBuild (Builder.demand fun module => module.checkNewSlot vtype)
  let type ← changeType vtype fun type => { type with ownedRefs := type.ownedRefs.push target }
  return UInt32.ofNat type.ownedRefs.size

/-- Add a native slot to every element of a variable type. -/
def addNativeSlot (vtype : VarTypeId) (ptype : ProcTypeId) : Build UInt32 := do
  let _ ← ofBuild (Builder.demand fun module => module.requirePtype ptype)
  ofBuild (Builder.demand fun module => module.checkNewSlot vtype)
  let type ← changeType vtype fun type => { type with nativeRefs := type.nativeRefs.push ptype }
  return UInt32.ofNat type.nativeRefs.size

/-- What appending an instruction adds to the tracker of its procedure. -/
def checkInstruction (builder : Builder) (proc : ProcId) (instruction : Instruction) :
    Except (Stop Error) Tracker.Update := do
  let context ← lift (orError (.missing (.procedure proc)) (ScopeContext.of? builder.module proc))
  let tracker ← cell builder.trackers proc.index.toNat
  let position := tracker.size
  if instruction.isJump && (instruction.jumpTarget? position).isNone then
    throw (.refused (.range (.jumpBeforeStart position proc)))
  if UInt32.size ≤ position + 1 then throw (.refused (.range (.instructionCount proc)))
  lift (builder.module.checkOperands instruction)
  refusing (.scope proc position) (check tracker context instruction)

/-- Append an instruction to a procedure. -/
def addInstruction (proc : ProcId) (instruction : Instruction) : Build Nat := do
  let update ← look fun builder => checkInstruction builder proc instruction
  let tracker ← look fun builder => cell builder.trackers proc.index.toNat
  let trackers ← look fun builder =>
    setCell builder.trackers proc.index.toNat (tracker.apply update)
  let declared ← look fun builder => cell builder.module.procs proc.index.toNat
  let procs ← look fun builder =>
    setCell builder.module.procs proc.index.toNat (declared.append instruction)
  modify fun builder => ⟨{ builder.module with procs }, trackers⟩
  return (declared.append instruction).instrCount.toNat

/-- Add the slots of a variable type, as a description has them. -/
def replaySlots (id : VarTypeId) (type : VarType) : Build Unit := do
  type.ownedRefs.toList.forM fun target => discard (addOwnedSlot id target)
  type.nativeRefs.toList.forM fun ptype => discard (addNativeSlot id ptype)

/-- Append the instructions of a procedure, as a description has them. -/
def replayCode (id : ProcId) (proc : ProcDef) : Build Unit := do
  let code ← look fun _ => instructions proc
  code.toList.forM fun instruction => discard (addInstruction id instruction)

/-- Repeat every declaration and every instruction of a description. -/
def replay (module : Module) : Build Unit := do
  if module.vtypes[0]? ≠ some VarType.word then throw (.refused (.argument .firstType))
  if module.regs[0]? ≠ some RegSpec.error then throw (.refused (.argument .firstRegister))
  let vtypes ← look fun _ => cellsFrom module.vtypes 1
  vtypes.forM fun type =>
    discard (ofBuild (Builder.addVarType type.elementCount type.elementBytes))
  let regs ← look fun _ => cellsFrom module.regs 1
  regs.forM fun spec => discard (ofBuild (Builder.replayReg spec))
  module.ptypes.toList.forM fun ptype =>
    discard (ofBuild (Builder.addProcType ptype.flags ptype.io))
  (module.vtypes.toList.zipIdx.drop 1).forM fun entry =>
    replaySlots ⟨UInt32.ofNat entry.2⟩ entry.1
  module.procs.toList.forM fun proc => discard (ofBuild (Builder.addProc proc.flags proc.ptype))
  module.procs.toList.zipIdx.forM fun entry => replayCode ⟨UInt32.ofNat entry.2⟩ entry.1

/-- Verify every procedure and give out the module. -/
def finish (id : ModuleId) : Build Module := do
  look fun builder => verifyModule builder.module
  let module := (← get).module
  set Builder.initial
  return { module with id }

/-- The module that a description gives when it is replayed and finished. -/
def rebuild (module : Module) (fresh : ModuleId) : Except (Stop Error) Module :=
  match (do replay module; finish fresh : Build Module) Builder.initial with
  | .ok rebuilt _ => .ok rebuilt
  | .error stop _ => .error stop

/-! ### Agreement -/

section
variable {α β : Type}

/-- An operation with direct access does what one without does, and keeps builders well-formed. -/
structure Agrees (direct : Build α) (action : ScopeMachine.Build α) : Prop where
  /-- Both do the same on a well-formed builder. -/
  same : ∀ builder : Builder, builder.WellFormed → direct builder = ofBuild action builder
  /-- What they leave is well-formed. -/
  keeps : Builder.Keeps Builder.WellFormed action

/-- A look that gives a value leaves the builder as it is. -/
theorem look_bind {builder : Builder} {computation : Builder → Except (Stop Error) α} {value : α}
    (gives : computation builder = .ok value) (next : α → Build β) :
    (look computation >>= next) builder = next value builder := by
  rw [bind_apply]
  unfold look
  rw [gives]

/-- A look that stops. -/
theorem look_bind_error {builder : Builder} {computation : Builder → Except (Stop Error) α}
    {stop : Stop Error} (stops : computation builder = .error stop) (next : α → Build β) :
    (look computation >>= next) builder = .error stop builder := by
  rw [bind_apply]
  unfold look
  rw [stops]

/-- An operation without direct access. -/
theorem agrees_ofBuild {action : ScopeMachine.Build α}
    (keeps : Builder.Keeps Builder.WellFormed action) : Agrees (ofBuild action) action :=
  ⟨fun _ _ => rfl, keeps⟩

/-- An operation that makes one of the changes keeps builders well-formed. -/
theorem agrees_of_change {direct : Build α} {action : ScopeMachine.Build α}
    (change : ∀ builder, Builder.Change builder (builder.after action))
    (same : ∀ builder : Builder, builder.WellFormed → direct builder = ofBuild action builder) :
    Agrees direct action :=
  ⟨same, Builder.keeps_of_change Builder.Change.wellFormed change⟩

/-- A look that always gives the same value. -/
theorem agrees_look {result : Except (Stop Error) α} {value : α} {next : α → Build β}
    {action : ScopeMachine.Build β} (gives : result = .ok value)
    (agrees : Agrees (next value) action) : Agrees (look (fun _ => result) >>= next) action := by
  refine ⟨fun builder wellFormed => ?_, agrees.keeps⟩
  rw [look_bind gives]
  exact agrees.same builder wellFormed

/-- A demand, and what follows it. -/
theorem agrees_guarded {condition : Prop} [Decidable condition] {error : Error}
    {next : Unit → Build α} {second : Unit → ScopeMachine.Build α}
    (agrees : ¬condition → Agrees (next ()) (second ())) :
    Agrees (if condition then throw (.refused error) >>= next else next ())
      (if condition then throw error >>= second else second ()) := by
  by_cases fails : condition
  · rw [if_pos fails, if_pos fails]
    exact ⟨fun _ _ => rfl, fun _ held => held⟩
  · rw [if_neg fails, if_neg fails]
    exact agrees fails

/-- One operation after the other. -/
theorem Agrees.bind {direct : Build α} {action : ScopeMachine.Build α} {next : α → Build β}
    {second : α → ScopeMachine.Build β} (agrees : Agrees direct action)
    (agreeNext : ∀ value, Agrees (next value) (second value)) :
    Agrees (direct >>= next) (action >>= second) := by
  refine ⟨fun builder wellFormed => ?_, agrees.keeps.bind fun value => (agreeNext value).keeps⟩
  -- the second operation runs on what the first leaves, which is well-formed again
  have kept := agrees.keeps builder wellFormed
  unfold Builder.after at kept
  rw [bind_apply, agrees.same builder wellFormed, ofBuild, ofBuild, bind_apply]
  cases ran : action builder with
  | error error changed => rfl
  | ok value changed =>
      rw [ran] at kept
      exact (agreeNext value).same changed kept

/-- An operation whose value is not used. -/
theorem Agrees.discard {direct : Build α} {action : ScopeMachine.Build α}
    (agrees : Agrees direct action) : Agrees (Functor.discard direct) (Functor.discard action) := by
  refine ⟨fun builder wellFormed => ?_, agrees.keeps.discard⟩
  rw [discard_apply, agrees.same builder wellFormed, ofBuild, ofBuild, discard_apply]
  cases action builder <;> rfl

/-- The same operation for every member of a list. -/
theorem agrees_forM {direct : α → Build PUnit} {action : α → ScopeMachine.Build PUnit}
    (items : List α) (agrees : ∀ item, Agrees (direct item) (action item)) :
    Agrees (items.forM direct) (items.forM action) := by
  induction items with
  | nil => exact ⟨fun _ _ => rfl, fun _ held => held⟩
  | cons item items ih => exact (agrees item).bind fun _ => ih

end

/-! ### Slots -/

section
variable {builder : Builder} {vtype : VarTypeId}

/-- Setting a cell to what its value is changed to. -/
theorem setIfInBounds_eq_modify {α : Type} {cells : Array α} {position : Nat} {value : α}
    (found : cells[position]? = some value) (change : α → α) :
    cells.setIfInBounds position (change value) = cells.modify position change := by
  obtain ⟨inside, rfl⟩ := Array.getElem?_eq_some_iff.mp found
  apply Array.ext_getElem?
  intro other
  rw [Array.getElem?_modify, Array.getElem?_setIfInBounds]
  by_cases here : position = other
  · subst here
    rw [if_pos rfl, if_pos rfl, if_pos inside, Array.getElem?_eq_getElem inside]
    rfl
  · rw [if_neg here, if_neg here]

/-- A type that may have one more slot is declared, and is changed where it stands. -/
theorem changeType_eq (allowed : builder.module.checkNewSlot vtype = .ok ())
    (change : VarType → VarType) :
    ∃ type, builder.module.vtype? vtype = some type ∧
      changeType vtype change builder = .ok type { builder with
        module := { builder.module with
          vtypes := builder.module.vtypes.modify vtype.index.toNat change } } := by
  obtain ⟨-, -, type, found, -⟩ := Module.checkNewSlot_eq_ok.mp allowed
  have inside : vtype.index.toNat < builder.module.vtypes.size :=
    (Array.getElem?_eq_some_iff.mp found).1
  refine ⟨type, found, ?_⟩
  unfold changeType
  rw [look_bind (cell_eq found), look_bind (setCell_of_lt inside _),
    setIfInBounds_eq_modify found change]
  rfl

/-- What follows a check runs if the check passes. -/
theorem demand_bind_apply {α β : Type} (check : Module → Except Error α)
    (next : α → ScopeMachine.Build β) :
    (Builder.demand check >>= next) builder =
      match check builder.module with
      | .ok value => next value builder
      | .error error => .error error builder := by
  unfold Builder.demand
  rw [bind_apply, get_bind_apply]
  cases check builder.module <;> rfl

/-- A check that passes leaves the rest to what follows. -/
theorem ofBuild_demand_bind {α β : Type} {check : Module → Except Error α} {next : α → Build β}
    {second : α → ScopeMachine.Build β}
    (passes : ∀ value, check builder.module = .ok value →
      next value builder = ofBuild (second value) builder) :
    (ofBuild (Builder.demand check) >>= next) builder =
      ofBuild (Builder.demand check >>= second) builder := by
  have alone : ofBuild (Builder.demand check) builder =
      match check builder.module with
      | .ok value => .ok value builder
      | .error error => .error (.refused error) builder := by
    have same : (Builder.demand check >>= pure) builder = _ := demand_bind_apply check pure
    rw [bind_pure] at same
    rw [ofBuild, same]
    cases check builder.module <;> rfl
  rw [bind_apply, alone, ofBuild, demand_bind_apply]
  cases checked : check builder.module with
  | error error => rfl
  | ok value => exact passes value checked

/-- Adding an owned slot stays inside the table of types. -/
theorem agrees_addOwnedSlot (vtype target : VarTypeId) :
    Agrees (addOwnedSlot vtype target) (Builder.addOwnedSlot vtype target) := by
  refine agrees_of_change (·.change_addOwnedSlot vtype target) fun builder _ => ?_
  unfold addOwnedSlot Builder.addOwnedSlot
  refine ofBuild_demand_bind fun _ _ => ofBuild_demand_bind fun _ allowed => ?_
  obtain ⟨type, found, changed⟩ := changeType_eq allowed fun type =>
    { type with ownedRefs := type.ownedRefs.push target }
  have declared : builder.module.requireVtype vtype = .ok type := orError_eq_ok.mpr found
  rw [bind_apply, changed, ofBuild, demand_bind_apply, declared]
  rfl

/-- Adding a native slot stays inside the table of types. -/
theorem agrees_addNativeSlot (vtype : VarTypeId) (ptype : ProcTypeId) :
    Agrees (addNativeSlot vtype ptype) (Builder.addNativeSlot vtype ptype) := by
  refine agrees_of_change (·.change_addNativeSlot vtype ptype) fun builder _ => ?_
  unfold addNativeSlot Builder.addNativeSlot
  refine ofBuild_demand_bind fun _ _ => ofBuild_demand_bind fun _ allowed => ?_
  obtain ⟨type, found, changed⟩ := changeType_eq allowed fun type =>
    { type with nativeRefs := type.nativeRefs.push ptype }
  have declared : builder.module.requireVtype vtype = .ok type := orError_eq_ok.mpr found
  rw [bind_apply, changed, ofBuild, demand_bind_apply, declared]
  rfl

end

/-! ### Instructions -/

/-- A declared procedure has a tracker, so the check of an instruction finds it. -/
theorem checkInstruction_eq {builder : Builder} (wellFormed : builder.WellFormed) (proc : ProcId)
    (instruction : Instruction) :
    checkInstruction builder proc instruction =
      lift (builder.checkInstruction proc instruction) := by
  unfold checkInstruction Builder.checkInstruction
  rw [lift_bind]
  cases declared : ScopeContext.of? builder.module proc with
  | none => rfl
  | some context =>
      have inside : proc.index.toNat < builder.trackers.size := by
        obtain ⟨io, isIo, -⟩ := Option.map_eq_some_iff.mp declared
        obtain ⟨found, isProc, -⟩ := Option.bind_eq_some_iff.mp isIo
        rw [wellFormed.size]
        exact (Array.getElem?_eq_some_iff.mp isProc).1
      show (cell builder.trackers proc.index.toNat >>= _) = lift (orError _ _ >>= _)
      rw [cell_of_lt inside, Array.getElem?_eq_getElem inside]
      generalize builder.trackers[proc.index.toNat] = tracker
      show (if _ then _ else _) = lift (if _ then _ else _)
      by_cases leaves : (instruction.isJump && (instruction.jumpTarget? tracker.size).isNone) = true
      · rw [if_pos leaves, if_pos leaves]
        rfl
      rw [if_neg leaves, if_neg leaves]
      by_cases full : UInt32.size ≤ tracker.size + 1
      · rw [if_pos full, if_pos full]
        rfl
      rw [if_neg full, if_neg full, lift_bind, check_eq, refusing_lift]
      show (lift (builder.module.checkOperands instruction) >>= _) = _
      congr 1
      funext _
      cases tracker.check context instruction <;> rfl

/-- Appending an instruction stays inside the tables of trackers and of procedures. -/
theorem agrees_addInstruction (proc : ProcId) (instruction : Instruction) :
    Agrees (addInstruction proc instruction) (Builder.addInstruction proc instruction) := by
  refine agrees_of_change (·.change_addInstruction proc instruction) fun builder wellFormed => ?_
  unfold addInstruction Builder.addInstruction ofBuild
  rw [get_bind_apply]
  cases checked : builder.checkInstruction proc instruction with
  | error error =>
      have refused : checkInstruction builder proc instruction = .error (.refused error) := by
        rw [checkInstruction_eq wellFormed, checked]
        rfl
      rw [look_bind_error refused]
      rfl
  | ok update =>
      obtain ⟨context, tracker, -, tracked, -⟩ := Builder.checkInstruction_eq_ok.mp checked
      have inside : proc.index.toNat < builder.trackers.size :=
        (Array.getElem?_eq_some_iff.mp tracked).1
      have proper : proc.index.toNat < builder.module.procs.size := wellFormed.size ▸ inside
      obtain ⟨declared, found⟩ :
          ∃ declared, builder.module.procs[proc.index.toNat]? = some declared :=
        ⟨_, Array.getElem?_eq_getElem proper⟩
      have accepted : checkInstruction builder proc instruction = .ok update := by
        rw [checkInstruction_eq wellFormed, checked]
        rfl
      have counted : ((builder.module.procs.modify proc.index.toNat (·.append instruction))[
          proc.index.toNat]?).elim 0 (fun declared => declared.instrCount.toNat) =
          (declared.append instruction).instrCount.toNat := by
        rw [Array.getElem?_modify, if_pos rfl, found]
        rfl
      rw [look_bind accepted, look_bind (cell_eq tracked), look_bind (setCell_of_lt inside _),
        look_bind (cell_eq found), look_bind (setCell_of_lt proper _),
        setIfInBounds_eq_modify tracked (·.apply update),
        setIfInBounds_eq_modify found (·.append instruction), ← counted]
      rfl

/-! ### Descriptions -/

/-- Replaying the slots of a type. -/
theorem agrees_replaySlots (id : VarTypeId) (type : VarType) :
    Agrees (replaySlots id type) (Builder.replaySlots id type) := by
  unfold replaySlots Builder.replaySlots
  refine (agrees_forM _ fun target => ?_).bind fun _ => agrees_forM _ fun ptype => ?_
  · exact (agrees_addOwnedSlot id target).discard
  · exact (agrees_addNativeSlot id ptype).discard

/-- Replaying the instructions of a procedure. -/
theorem agrees_replayCode (id : ProcId) (proc : ProcDef) :
    Agrees (replayCode id proc) (Builder.replayCode id proc) := by
  unfold replayCode Builder.replayCode
  cases read : liftCodec proc.instructions with
  | error error =>
      have refused : instructions proc = .error (.refused error) := by
        rw [instructions_eq, read]
        rfl
      exact ⟨fun builder _ => look_bind_error refused _, Builder.keeps_throw error⟩
  | ok code =>
      have decoded : instructions proc = .ok code := by
        rw [instructions_eq, read]
        rfl
      refine agrees_look decoded (agrees_forM _ fun instruction => ?_)
      exact (agrees_addInstruction id instruction).discard

/-- **Replaying a description reaches into no table outside**, whatever the description. -/
theorem agrees_replay (module : Module) : Agrees (replay module) (Builder.replay module) := by
  unfold replay Builder.replay
  refine agrees_guarded fun hasWord => agrees_guarded fun hasError => ?_
  -- what has been compared with the first entry is not empty, so there is a rest
  refine agrees_look (if_pos ?_) ((agrees_forM _ fun type => ?_).bind fun _ => ?_)
  · exact (Array.getElem?_eq_some_iff.mp (Decidable.not_not.mp hasWord)).1
  · exact (agrees_of_change (·.change_addVarType _ _) fun _ _ => rfl).discard
  refine agrees_look (if_pos ?_) ((agrees_forM _ fun spec => ?_).bind fun _ => ?_)
  · exact (Array.getElem?_eq_some_iff.mp (Decidable.not_not.mp hasError)).1
  · exact (agrees_ofBuild (Builder.keeps_replayReg Builder.Change.wellFormed spec)).discard
  refine (agrees_forM _ fun ptype => ?_).bind fun _ => ?_
  · exact (agrees_of_change (·.change_addProcType _ _) fun _ _ => rfl).discard
  refine (agrees_forM _ fun entry => agrees_replaySlots _ _).bind fun _ => ?_
  refine (agrees_forM _ fun proc => ?_).bind fun _ => ?_
  · exact (agrees_of_change (·.change_addProc _ _) fun _ _ => rfl).discard
  exact agrees_forM _ fun entry => agrees_replayCode _ _

/-- Finishing verifies within the tables. -/
theorem verifyModule_eq (module : Module) :
    verifyModule module = lift (ScopeMachine.verifyModule module) := by
  unfold verifyModule ScopeMachine.verifyModule
  generalize List.range module.procs.size = indices
  induction indices with
  | nil => rfl
  | cons index indices ih =>
      show (verifyProc module _ >>= fun _ => _) =
        lift (ScopeMachine.verifyProc module _ >>= fun _ => _)
      rw [verifyProc_eq, lift_bind, ih]

/-- Finishing a module. -/
theorem agrees_finish (fresh : ModuleId) : Agrees (finish fresh) (Builder.finish fresh) := by
  refine agrees_of_change (·.change_finish fresh) fun builder _ => ?_
  unfold finish Builder.finish
  rw [ofBuild, demand_bind_apply]
  cases verified : ScopeMachine.verifyModule builder.module with
  | error error =>
      have refused : verifyModule builder.module = .error (.refused error) := by
        rw [verifyModule_eq, verified]
        rfl
      rw [look_bind_error refused]
  | ok _ =>
      have accepted : verifyModule builder.module = .ok () := by
        rw [verifyModule_eq, verified]
        rfl
      rw [look_bind accepted]
      rfl

end Direct

/-! ### The import -/

/-- The module that a description gives when it is replayed and finished. -/
def Builder.rebuild (module : Module) (fresh : ModuleId) : Except Error Module := do
  let builder ← Builder.ofModule module
  match Builder.finish fresh builder with
  | .ok rebuilt _ => .ok rebuilt
  | .error error _ => .error error

/-- Replay a description with a builder of a registry, and register the module. -/
def Host.registerRebuilt (registry : Nat) (module : Module) (fresh : ModuleId) : HostM Unit := do
  let builder ← Host.inspect fun _ => Builder.ofModule module
  Host.create (← Host.newBuilder registry builder) fresh

namespace Direct

/-- The import with direct access is the import without. -/
theorem rebuild_eq (module : Module) (fresh : ModuleId) :
    rebuild module fresh = lift (Builder.rebuild module fresh) := by
  have same := ((agrees_replay module).bind fun _ => agrees_finish fresh).same
    Builder.initial Builder.wellFormed_initial
  unfold rebuild Builder.rebuild Builder.ofModule
  rw [same, ofBuild, bind_apply]
  cases Builder.replay module Builder.initial with
  | error error changed => rfl
  | ok _ builder =>
      dsimp only
      show _ = lift (match Builder.finish fresh builder with
        | .ok rebuilt _ => .ok rebuilt
        | .error error _ => .error error)
      cases Builder.finish fresh builder <;> rfl

/-- Registering the module that a description gives ends as the import does. -/
theorem outcome_registerRebuilt (host : Host) (registry : Nat) (module : Module)
    (fresh : ModuleId) :
    host.outcome (Host.registerRebuilt registry module fresh) =
      (Builder.rebuild module fresh).map fun _ => () := by
  unfold Host.registerRebuilt Builder.rebuild
  cases replayed : Builder.ofModule module with
  | error error => rfl
  | ok builder =>
      let middle : Host := { host with builders := host.builders.insert ⟨registry, builder⟩ }
      have found : middle.builders.get? host.builders.next = some ⟨registry, builder⟩ := by
        rw [Slots.get?_insert, if_pos rfl]
      show middle.outcome (Host.create host.builders.next fresh) =
        (match Builder.finish fresh builder with
          | .ok rebuilt _ => .ok rebuilt
          | .error error _ => .error error : Except Error Module).map fun _ => ()
      unfold Host.outcome Host.create Host.finish
      rw [bind_apply, bind_apply, Host.build_apply found]
      cases Builder.finish fresh builder <;> rfl

/-- **Importing a description stays inside every table and comes to an end.** With direct access,
importing any description at all ends in the module or in the refusal that it ends in without direct
access, and in no other way; so it does if the module is registered; and each instruction is read
from at least one byte and from no byte that is not there. -/
theorem rebuild_eq_lift (module : Module) (fresh : ModuleId) :
    rebuild module fresh = lift (Builder.rebuild module fresh) ∧
      (∀ (host : Host) (registry : Nat),
        (rebuild module fresh).map (fun _ => ()) =
          lift (host.outcome (Host.registerRebuilt registry module fresh))) ∧
      ∀ (bytes : List UInt8) (instruction : Instruction) (used : Nat),
        Instruction.decode bytes = .ok (instruction, used) → 1 ≤ used ∧ used ≤ bytes.length := by
  refine ⟨rebuild_eq module fresh, fun host registry => ?_,
    fun bytes instruction used decoded => ?_⟩
  · rw [rebuild_eq, outcome_registerRebuilt]
    cases Builder.rebuild module fresh <;> rfl
  · exact Instruction.used_of_decode decoded

/-- A description whose one instruction jumps far beyond the end of its code, and which counts
instructions that it does not have. -/
def farJump : Module := { Module.initial with
  regs := #[RegSpec.error, ⟨VarTypeId.word, 1, Flags.empty, none⟩]
  ptypes := #[⟨ProcTypeFlags.function, Samples.reg 1⟩]
  procs := #[⟨Flags.empty, ⟨0⟩, #[40, 232, 7], 9⟩] }

/-- The jump of `farJump` is read from all three bytes, and it is refused before a table is reached
into at its target. -/
theorem rebuild_farJump :
    rebuild farJump ModuleId.nil = .error (.refused (.range (.jumpOutside 0 ⟨0⟩ 1000))) ∧
      Instruction.decode [40, 232, 7] = .ok (.jmp 1000, 3) ∧ 1 ≤ 3 ∧ 3 ≤ [40, 232, 7].length := by
  obtain ⟨same, -, consumes⟩ := rebuild_eq_lift farJump ModuleId.nil
  have refused : Builder.rebuild farJump ModuleId.nil =
      .error (.range (.jumpOutside 0 ⟨0⟩ 1000)) := by
    rfl
  have decoded : Instruction.decode [40, 232, 7] = .ok (.jmp 1000, 3) := by rfl
  refine ⟨?_, decoded, consumes [40, 232, 7] _ 3 decoded⟩
  rw [same, refused]
  rfl

end Direct

end ScopeMachine
