import ScopeMachine.Proofs.Residency
import ScopeMachine.Proofs.Safety

/-! # The life of a module

A registered module is structural or compiled, as often as it is asked to change, until it is
destroyed, once and for everyone. What a party is answered depends on what has happened to the
module, and not on the party.

* `RegSpec.storage` is what a persistent register holds right after compiling, and
  `renewed_of_compile` says that compiling makes it so;
* `Host.ask_eq` says that a party asks its module, after its handle has been resolved;
* `Host.Serves` lists what a module does before it is destroyed, and `Host.Lives` adds what is left
  of it afterwards;
* `follows_lifecycle` says that this is so after every history. -/

namespace ScopeMachine

/-! ### Storage of persistent registers -/

/-- What a persistent register holds right after compiling: its initial payload, or zeros, and
nothing in its slots. -/
def RegSpec.storage (spec : RegSpec) (type : VarType) : Variable where
  layout := ⟨spec.vtype, type⟩
  count := spec.count.toNat
  payload := spec.init.getD (Array.replicate (spec.count.toNat * type.elementBytes.toNat) 0)
  owned := Array.replicate (spec.count.toNat * type.ownedRefs.size) none
  natives := Array.replicate (spec.count.toNat * type.nativeRefs.size) none

/-- Copying nothing changes nothing. -/
theorem Variable.copyPayload_empty (var : Variable) : var.copyPayload #[] = var := by
  unfold copyPayload
  rw [Array.take_eq_extract, Array.extract_empty]
  rfl

/-- Copying as many bytes as there are replaces them all. -/
theorem Variable.copyPayload_all {var : Variable} {bytes : Array UInt8}
    (all : bytes.size = var.payload.size) :
    var.copyPayload bytes = { var with payload := bytes } := by
  unfold copyPayload
  rw [← all, Array.take_eq_extract, Array.extract_size, overwrite_all _ _ all]

/-- The initial payload covers the whole storage, if there is one. -/
theorem RegSpec.Fits.copyPayload_init {module : Module} {spec : RegSpec} (fits : spec.Fits module)
    {type : VarType} (found : module.vtype? spec.vtype = some type) :
    (Variable.zeroed ⟨spec.vtype, type⟩ spec.count.toNat).copyPayload (spec.init.getD #[]) =
      spec.storage type := by
  obtain ⟨declared, isDeclared, -, -, initial⟩ := fits.type
  obtain rfl : declared = type := Option.some.inj (isDeclared.symm.trans found)
  unfold RegSpec.storage
  cases isInit : spec.init with
  | none => exact Variable.copyPayload_empty _
  | some init =>
      obtain ⟨-, -, size⟩ := initial init isInit
      refine Variable.copyPayload_all ?_
      show init.size = (Array.replicate _ _).size
      rw [Array.size_replicate]
      exact size

/-- Every persistent register of a program has storage of its own that was not there before, as it
is right after compiling; what was there before is still there. -/
structure Renewed (module : Module) (program : Program) (before after : Store) : Prop where
  /-- The storage is fresh. -/
  storage : ∀ {index : Nat} {spec : RegSpec}, module.regs[index]? = some spec →
    spec.flags.contains RegFlags.persistent = true →
    ∃ slot var type, program.regs[index]? = some slot ∧ slot.persistent = some var ∧
      before.next ≤ var ∧ module.vtype? spec.vtype = some type ∧
      after.get? var = some (spec.storage type)
  /-- Nothing else changes. -/
  others : ∀ {var : VarId}, var < before.next → after.get? var = before.get? var

/-- Compiling registers one after the other. -/
theorem renewed_of_compileRegs {module : Module} {specs : List RegSpec} {slots : List RegSlot}
    {before after : Store}
    (compiled : specs.mapM (Program.compileReg module) before = .ok slots after)
    (fits : ∀ spec ∈ specs, spec.Fits module) :
    before.next ≤ after.next ∧ (∀ var, var < before.next → after.get? var = before.get? var) ∧
      ∀ (index : Nat) (spec : RegSpec), specs[index]? = some spec →
        spec.flags.contains RegFlags.persistent = true →
        ∃ (slot : RegSlot) (var : VarId) (type : VarType), slots[index]? = some slot ∧
          slot.persistent = some var ∧
          before.next ≤ var ∧ module.vtype? spec.vtype = some type ∧
          after.get? var = some (spec.storage type) := by
  induction specs generalizing slots before with
  | nil =>
      rw [List.mapM_nil] at compiled
      cases compiled
      refine ⟨Nat.le_refl _, fun _ _ => rfl, ?_⟩
      intro index spec found
      cases found
  | cons spec specs ih =>
      rw [List.mapM_cons] at compiled
      obtain ⟨slot, middle, first, compiled⟩ := bind_apply_eq_ok.mp compiled
      obtain ⟨others, last, rest, compiled⟩ := bind_apply_eq_ok.mp compiled
      cases compiled
      obtain ⟨grows, keeps, storage⟩ := ih rest fun spec member =>
        fits spec (List.mem_cons_of_mem _ member)
      obtain ⟨type, isType, persistent⟩ := compileReg_eq_ok first
      have grown : before.next ≤ middle.next ∧
          ∀ var, var < before.next → middle.get? var = before.get? var := by
        rcases persistent with ⟨-, -, rfl⟩ | ⟨-, -, rfl⟩
        · refine ⟨?_, fun var old => ?_⟩
          · rw [Slots.next_insert]
            omega
          · rw [Slots.get?_insert, if_neg (Nat.ne_of_lt old)]
        · exact ⟨Nat.le_refl _, fun _ _ => rfl⟩
      refine ⟨Nat.le_trans grown.1 grows, ?_, ?_⟩
      · intro var old
        rw [keeps var (Nat.lt_of_lt_of_le old grown.1), grown.2 var old]
      · intro index other found isPersistent
        cases index with
        | zero =>
            rw [List.getElem?_cons_zero, Option.some.injEq] at found
            subst found
            rcases persistent with ⟨-, isSlot, isMiddle⟩ | ⟨plain, -⟩
            · refine ⟨slot, before.next, type, rfl, by rw [isSlot], Nat.le_refl _, isType, ?_⟩
              have inside : before.next < middle.next := by
                rw [isMiddle, Slots.next_insert]
                omega
              rw [keeps _ inside, isMiddle, Slots.get?_insert, if_pos rfl]
              rw [isSlot]
              exact congrArg some ((fits spec List.mem_cons_self).copyPayload_init isType)
            · rw [isPersistent] at plain
              cases plain
        | succ index =>
            obtain ⟨slot, var, type, isSlot, isVar, fresh, isType, holds⟩ :=
              storage index other found isPersistent
            exact ⟨slot, var, type, isSlot, isVar, Nat.le_trans grown.1 fresh, isType, holds⟩

/-- **Compiling renews the storage of every persistent register.** -/
theorem renewed_of_compile {module : Module} {maxCallDepth : Nat} {program : Program}
    {before after : Store} (wellFormed : module.WellFormed)
    (compiled : Program.compile module maxCallDepth before = .ok program after) :
    Renewed module program before after := by
  obtain ⟨regs, procs, compiledRegs, -, rfl⟩ := compile_eq_ok.mp compiled
  obtain ⟨-, keeps, storage⟩ := renewed_of_compileRegs compiledRegs fun spec member =>
    wellFormed.regs spec (Array.mem_toList_iff.mp member)
  refine ⟨?_, fun {var} => keeps var⟩
  intro index spec found persistent
  obtain ⟨slot, var, type, isSlot, rest⟩ :=
    storage index spec (by rw [Array.getElem?_toList, found]) persistent
  exact ⟨slot, var, type, by simpa using isSlot, rest⟩

/-! ### Answers -/

/-- What a caller is told about a run. -/
def Machine.Completion.answer : Completion → Except Error Host.CallStatus
  | returned => .ok .returned
  | failed error => .error error
  | running => .ok .unfinished

namespace Host

/-- How an action ends: with a value or with an error. -/
def outcome {α : Type} (host : Host) (action : HostM α) : Except Error α :=
  match action host with
  | .ok value _ => .ok value
  | .error error _ => .error error

section
variable {α β : Type} {host other : Host}

/-- Actions with the same result end in the same way. -/
theorem outcome_congr {action second : HostM α} (same : action host = second other) :
    host.outcome action = other.outcome second := by
  unfold outcome
  rw [same]

/-- What a value is made into. -/
theorem outcome_bind_pure (host : Host) (action : HostM α) (make : α → β) :
    host.outcome (action >>= fun value => pure (make value)) = (host.outcome action).map make := by
  unfold outcome
  rw [bind_apply]
  cases action host <;> rfl

/-- What follows an action that succeeds. -/
theorem outcome_bind_ok {action : HostM α} {value : α} (done : action host = .ok value other)
    (next : α → HostM β) : host.outcome (action >>= next) = other.outcome (next value) := by
  refine outcome_congr ?_
  rw [bind_apply, done]

/-- Nothing follows an action that fails. -/
theorem outcome_bind_error {action : HostM α} {error : Error}
    (failed : host.outcome action = .error error) (next : α → HostM β) :
    host.outcome (action >>= next) = .error error := by
  unfold outcome at failed ⊢
  rw [bind_apply]
  cases ran : action host with
  | ok value after =>
      rw [ran] at failed
      cases failed
  | error other after =>
      rw [ran] at failed
      cases failed
      rfl

/-- An action that succeeds. -/
theorem outcome_ok {action : HostM α} {value : α} (done : action host = .ok value other) :
    host.outcome action = .ok value := by
  unfold outcome
  rw [done]

/-- An action that fails. -/
theorem outcome_error {action : HostM α} {error : Error}
    (failed : action host = .error error other) :
    host.outcome action = .error error := by
  unfold outcome
  rw [failed]

end

/-- Two hosts have the same variables, and one of their modules is in the same stage and is compiled
in the same way. -/
structure Alike (key : Nat) (id : ModuleId) (host other : Host) : Prop where
  /-- The variables are the same. -/
  store : other.store = host.store
  /-- The module is in the same stage. -/
  stage : other.stage key id = host.stage key id
  /-- The module is compiled in the same way. -/
  backend : (other.registry key).backend = (host.registry key).backend

section
variable {host other : Host} {key : Nat} {id : ModuleId} {registry : Registry} {entry : Entry}

/-- The stage of a module whose entry has been changed. -/
theorem stage_modifyEntry (change : Entry → Entry)
    (changed : other.registries.get? key = some (registry.modifyEntry id change))
    (keepsId : ∀ entry, (change entry).id = entry.id) (isEntry : registry.find? id = some entry) :
    other.stage key id = (change entry).stage := by
  refine stage_eq changed ?_
  rw [Registry.find?_modifyEntry keepsId, if_pos rfl, isEntry]
  rfl

/-- A handle can be resolved as long as its module has not been destroyed. -/
theorem resolve_living {handle : Handle} (found : host.handles.get? key = some handle)
    (isRegistry : host.registries.get? handle.registry = some registry)
    (isEntry : registry.find? handle.module = some entry) (living : entry.destroyed = false) :
    ∃ middle, resolve key host = .ok { handle with resolved := true } middle ∧
      Alike handle.registry handle.module host middle := by
  rw [resolve_apply found, registry_eq isRegistry]
  cases resolved : handle.resolved with
  | true =>
      refine ⟨host, ?_, rfl, rfl, rfl⟩
      rw [if_pos rfl, ← resolved]
  | false =>
      rw [if_neg (by decide), Registry.retain?_eq_some.mpr ⟨entry, isEntry, living, rfl⟩]
      refine ⟨_, rfl, rfl, ?_, ?_⟩
      all_goals
        have changed : (host.registries.modify handle.registry fun _ =>
            registry.modifyEntry handle.module fun entry =>
              { entry with refs := entry.refs + 1 }).get?
              handle.registry = some (registry.modifyEntry handle.module fun entry =>
                { entry with refs := entry.refs + 1 }) := by
          rw [Slots.get?_modify, if_pos rfl, isRegistry]
          rfl
      · rw [stage_eq isRegistry isEntry]
        exact stage_modifyEntry (fun entry => { entry with refs := entry.refs + 1 }) changed
          (by intro entry; rfl) isEntry
      · rw [registry_eq changed, registry_eq isRegistry]
        rfl

/-- **Asking a module that has not been destroyed** is the same for every party, apart from the
reference that a handle takes. -/
theorem ask_eq {party : Party} {subject : ModuleRef}
    (speaks : host.subject? party = some subject)
    (isRegistry : host.registries.get? subject.registry = some registry)
    (isEntry : registry.find? subject.module = some entry) (living : entry.destroyed = false)
    (errand : Errand) (notDestroy : errand ≠ .destroy) :
    ∃ middle, Alike subject.registry subject.module host middle ∧
      host.outcome (ask party errand) =
        middle.outcome (errand.atModule subject.registry subject.module) ∧
      host.after (ask party errand) =
        middle.after (errand.atModule subject.registry subject.module) := by
  have asks : ∃ middle, Alike subject.registry subject.module host middle ∧
      ask party errand host = errand.atModule subject.registry subject.module middle := by
    cases party with
    | ref key => exact ⟨host, ⟨rfl, rfl, rfl⟩, ask_ref speaks errand⟩
    | handle key =>
        obtain ⟨handle, found, rfl⟩ := Option.map_eq_some_iff.mp speaks
        obtain ⟨middle, resolves, alike⟩ := resolve_living found isRegistry isEntry living
        refine ⟨middle, alike, ?_⟩
        show errand.atHandle key host = _
        rw [atHandle_eq notDestroy, bind_apply, resolves]
  obtain ⟨middle, alike, same⟩ := asks
  refine ⟨middle, alike, outcome_congr same, ?_⟩
  unfold after
  rw [same]

/-- Releasing a handle never fails. -/
theorem exists_releaseHandle (host : Host) (key : Nat) :
    ∃ after, releaseHandle key host = .ok () after := by
  unfold releaseHandle
  rw [get_bind_apply]
  cases (host.handle key).resolved with
  | false => exact ⟨host, rfl⟩
  | true =>
      obtain ⟨events, releases⟩ := releaseModule_apply
        { host with handles := host.handles.modify key ({ · with resolved := false }) }
        (host.handle key).registry (host.handle key).module
      exact ⟨_, releases⟩

/-- A module that has not been destroyed can be, by every party. -/
theorem outcome_destroy {party : Party} {subject : ModuleRef}
    (speaks : host.subject? party = some subject)
    (isRegistry : host.registries.get? subject.registry = some registry)
    (isEntry : registry.find? subject.module = some entry) (living : entry.destroyed = false)
    (notDestroyed : entry.stage ≠ .destroyed) :
    host.outcome (ask party .destroy) = .ok .done := by
  have isStage := stage_eq isRegistry isEntry
  cases party with
  | ref key =>
      rw [outcome_congr (ask_ref speaks .destroy)]
      show host.outcome (destroyModule subject.registry subject.module >>= fun _ =>
        pure Answer.done) = _
      rw [outcome_bind_pure]
      rcases destroyModule_cases host subject.registry subject.module with
        ⟨-, store, events, done⟩ | ⟨gone, -⟩
      · rw [outcome_ok done]
        rfl
      · exact absurd (isStage.symm.trans gone) notDestroyed
  | handle key =>
      obtain ⟨handle, found, rfl⟩ := Option.map_eq_some_iff.mp speaks
      obtain ⟨middle, resolves, alike⟩ := resolve_living found isRegistry isEntry living
      have destroys : ∃ after, destroy key host = .ok () after := by
        rw [destroy_apply resolves]
        rcases destroyModule_cases middle handle.registry handle.module with
          ⟨-, store, events, done⟩ | ⟨gone, -⟩
        · dsimp only
          rw [done]
          exact exists_releaseHandle _ key
        · exact absurd (isStage.symm.trans (alike.stage.symm.trans gone)) notDestroyed
      obtain ⟨after, destroyed⟩ := destroys
      show host.outcome (destroy key >>= fun _ => pure Answer.done) = _
      rw [outcome_bind_pure, outcome_ok destroyed]
      rfl

/-! ### Destroyed modules -/

/-- Whatever is asked of a destroyed module, it is not found, and nothing changes. -/
theorem atModule_destroyed (gone : host.stage key id = .destroyed) (errand : Errand) :
    errand.atModule key id host = .error (.missing (.destroyed id)) host := by
  have fails : ∀ {α : Type} {action : HostM α} (make : α → Answer),
      action host = .error (.missing (.destroyed id)) host →
      (action >>= fun value => pure (make value)) host =
        .error (.missing (.destroyed id)) host := by
    intro α action make failed
    rw [bind_apply, failed]
  cases errand with
  | describe =>
      refine fails _ ?_
      unfold describeModule inspect
      rw [get_bind_apply]
      dsimp only
      rw [gone]
      rfl
  | isCompiled =>
      refine fails _ ?_
      unfold isCompiledModule
      rw [get_bind_apply, gone]
      rfl
  | call proc io steps =>
      refine fails _ ?_
      unfold callModule
      rw [get_bind_apply, gone]
      rfl
  | unpack =>
      refine fails (fun _ => .done) ?_
      unfold unpackModule
      rw [get_bind_apply, gone]
      rfl
  | pack =>
      refine fails (fun _ => .done) ?_
      unfold packModule
      rw [get_bind_apply, gone]
      rfl
  | destroy =>
      refine fails (fun _ => .done) ?_
      rcases destroyModule_cases host key id with ⟨living, -⟩ | ⟨-, failed⟩
      · exact absurd gone living
      · exact failed

/-- **Whatever a party asks of a destroyed module, it is not found.** -/
theorem outcome_destroyed {party : Party} {subject : ModuleRef}
    (speaks : host.subject? party = some subject)
    (gone : host.stage subject.registry subject.module = .destroyed)
    (lost : (host.registry subject.registry).retain? subject.module = none) (errand : Errand) :
    ∃ cause, host.outcome (ask party errand) = .error (.missing cause) := by
  cases party with
  | ref key =>
      rw [outcome_congr (ask_ref speaks errand)]
      exact ⟨_, outcome_error (atModule_destroyed gone errand)⟩
  | handle key =>
      obtain ⟨handle, found, rfl⟩ := Option.map_eq_some_iff.mp speaks
      have resolves := resolve_apply found
      rw [lost] at resolves
      show ∃ cause, host.outcome (errand.atHandle key) = _
      by_cases isDestroy : errand = .destroy
      · subst isDestroy
        show ∃ cause, host.outcome (destroy key >>= fun _ => pure Answer.done) = _
        rw [outcome_bind_pure]
        cases resolved : handle.resolved with
        | false =>
            rw [resolved, if_neg (by decide)] at resolves
            have fails : destroy key host =
                .error (.missing (.unregistered handle.module)) host := by
              unfold destroy
              rw [bind_apply, resolves]
            exact ⟨_, by rw [outcome_error fails]; rfl⟩
        | true =>
            rw [resolved, if_pos rfl] at resolves
            obtain ⟨after, released⟩ := exists_releaseHandle host key
            rcases destroyModule_cases host handle.registry handle.module with
              ⟨living, -⟩ | ⟨-, failed⟩
            · exact absurd gone living
            · have fails : destroy key host =
                  .error (.missing (.destroyed handle.module)) after := by
                rw [destroy_apply resolves, failed]
                dsimp only
                rw [bind_apply, released]
                rfl
              exact ⟨_, by rw [outcome_error fails]; rfl⟩
      · rw [atHandle_eq isDestroy]
        cases resolved : handle.resolved with
        | false =>
            -- the handle would need a reference, and cannot get one
            rw [resolved, if_neg (by decide)] at resolves
            exact ⟨_, outcome_error (by rw [bind_apply, resolves])⟩
        | true =>
            rw [resolved, if_pos rfl] at resolves
            have runs : (resolve key >>= fun handle =>
                errand.atModule handle.registry handle.module) host =
                  errand.atModule handle.registry handle.module host := by
              rw [bind_apply, resolves]
            rw [outcome_congr runs]
            exact ⟨_, outcome_error (atModule_destroyed gone errand)⟩

end

/-! ### Modules in use -/

/-- What a module does for a party before it is destroyed, after some deeds. -/
structure Serves (host : Host) (party : Party) (subject : ModuleRef) (module : Module)
    (deeds : List Deed) : Prop where
  /-- It gives its description. -/
  described : host.outcome (ask party .describe) = .ok (.description module)
  /-- It is compiled if the last that was asked for and granted was an executable form. -/
  form : host.outcome (ask party .isCompiled) = .ok (.form (lastForm deeds = some .unpacked))
  /-- It can be asked to discard the executable form. -/
  packs : host.outcome (ask party .pack) = .ok .done
  /-- It can be destroyed. -/
  destroys : host.outcome (ask party .destroy) = .ok .done
  /-- Without an executable form, calls are refused, and variables stay as they are. -/
  refuses : lastForm deeds ≠ some .unpacked → ∀ proc io steps,
    host.outcome (ask party (.call proc io steps)) =
        .error (.misuse (.notCompiled subject.module)) ∧
      (host.after (ask party (.call proc io steps))).store = host.store
  /-- With an executable form, calls run its entry points. -/
  runs : lastForm deeds = some .unpacked →
    ∃ program, host.stage subject.registry subject.module = .compiled module program ∧
      ∀ proc io steps, host.outcome (ask party (.call proc io steps)) =
        if (program.entryPoint? proc).isNone then
          .error (.missing (.entryPointIn proc subject.module))
        else (Machine.invoke program proc io steps host.store).2.answer.map .status
  /-- If it cannot be compiled, it stays as it is, without an executable form. -/
  stays : ∀ error, host.outcome (ask party .unpack) = .error error →
    lastForm deeds ≠ some .unpacked ∧
      (host.after (ask party .unpack)).stage subject.registry subject.module = .structural module ∧
      (host.after (ask party .unpack)).store = host.store
  /-- If it has an executable form, it keeps it, with all that persistent registers hold. -/
  keeps : ∀ program, host.stage subject.registry subject.module = .compiled module program →
    host.outcome (ask party .unpack) = .ok .done ∧
      (host.after (ask party .unpack)).stage subject.registry subject.module =
        .compiled module program ∧
      (host.after (ask party .unpack)).store = host.store
  /-- If it has none and is compiled, every persistent register starts anew. -/
  renews : lastForm deeds ≠ some .unpacked → host.outcome (ask party .unpack) = .ok .done →
    ∃ program, (host.after (ask party .unpack)).stage subject.registry subject.module =
        .compiled module program ∧
      Renewed module program host.store (host.after (ask party .unpack)).store

/-- What becomes of a module, for a party, after some deeds. -/
structure Lives (host : Host) (party : Party) (subject : ModuleRef) (module : Module)
    (deeds : List Deed) : Prop where
  /-- It is destroyed at most once. -/
  once : deeds.count .destroyed ≤ 1
  /-- The stage tells whether it has been destroyed. -/
  stage : host.stage subject.registry subject.module = .destroyed ↔ .destroyed ∈ deeds
  /-- The flag tells whether it has been destroyed. -/
  flag : (host.registry subject.registry).isDestroyed subject.module = true ↔ .destroyed ∈ deeds
  /-- It can be used as long as it has not been destroyed. -/
  serves : .destroyed ∉ deeds → host.Serves party subject module deeds
  /-- It is not found once it has been destroyed, whatever is asked of it. -/
  gone : .destroyed ∈ deeds → ∀ errand, ∃ cause,
    host.outcome (ask party errand) = .error (.missing cause)

section
variable {host : Host} {key : Nat} {id : ModuleId} {module : Module} {program : Program}

/-- Describing a module that has not been destroyed. -/
theorem outcome_describeModule (isModule : (host.stage key id).module? = some module) :
    host.outcome (describeModule key id) = .ok module := by
  have looks : describeModule key id host = .ok module host := by
    unfold describeModule inspect
    rw [get_bind_apply]
    dsimp only
    rw [isModule]
    rfl
  exact outcome_ok looks

/-- Asking whether a module has an executable form. -/
theorem outcome_isCompiledModule {deeds : List Deed}
    (shows : Books.Shows deeds module (host.stage key id)) :
    host.outcome (isCompiledModule key id) = .ok (lastForm deeds = some .unpacked) := by
  rcases shows with ⟨same, packed⟩ | ⟨program, same, unpacked⟩
  · have looks : isCompiledModule key id host = .ok false host := by
      unfold isCompiledModule
      rw [get_bind_apply, same]
      rfl
    rw [outcome_ok looks, decide_eq_false packed]
  · have looks : isCompiledModule key id host = .ok true host := by
      unfold isCompiledModule
      rw [get_bind_apply, same]
      rfl
    rw [outcome_ok looks, decide_eq_true unpacked]

/-- Calling a module without an executable form. -/
theorem callModule_structural (isStage : host.stage key id = .structural module) (proc : ProcId)
    (io : VarId) (steps : Nat) :
    callModule key id proc io steps host = .error (.misuse (.notCompiled id)) host := by
  unfold callModule
  rw [get_bind_apply, isStage]
  rfl

/-- How running an entry point ends. -/
theorem outcome_invokeProgram (host : Host) (program : Program) (proc : ProcId) (io : VarId)
    (steps : Nat) :
    host.outcome (invokeProgram program proc io steps) =
      (Machine.invoke program proc io steps host.store).2.answer := by
  have runs : invokeProgram program proc io steps host =
      settle (Machine.invoke program proc io steps host.store).1
        (Machine.invoke program proc io steps host.store).2
        { host with store := Slots.empty } := rfl
  rw [outcome_congr runs]
  cases (Machine.invoke program proc io steps host.store).2 <;> rfl

/-- Reporting an error and failing with it. -/
theorem outcome_tryCatch_throw {α : Type} (host : Host) (action : HostM α)
    {report : Error → HostM Unit}
    (reports : ∀ error host, ∃ after, report error host = .ok () after) :
    host.outcome (tryCatch action fun error => report error >>= fun _ => throw error) =
      host.outcome action := by
  unfold outcome
  rw [tryCatch_apply]
  cases action host with
  | ok value after => rfl
  | error error after =>
      obtain ⟨last, reported⟩ := reports error after
      dsimp only
      rw [bind_apply, reported]
      rfl

/-- What calling a module with an executable form does. -/
theorem callModule_apply (isStage : host.stage key id = .compiled module program) (proc : ProcId)
    (io : VarId) (steps : Nat) :
    callModule key id proc io steps host =
      (if (program.entryPoint? proc).isNone then throw (.missing (.entryPointIn proc id))
      else tryCatch (invokeProgram program proc io steps) fun error =>
        (match error with
          | .execution fault => emit (.faulted id proc fault)
          | _ => pure ()) >>= fun _ => throw error : HostM CallStatus) host := by
  unfold callModule
  rw [get_bind_apply, isStage]
  dsimp only
  split
  · rfl
  · refine congrFun (congrArg (tryCatch _) ?_) host
    funext error
    cases error <;> rfl

/-- Calling a module with an executable form. -/
theorem outcome_callModule (isStage : host.stage key id = .compiled module program) (proc : ProcId)
    (io : VarId) (steps : Nat) :
    host.outcome (callModule key id proc io steps) =
      if (program.entryPoint? proc).isNone then .error (.missing (.entryPointIn proc id))
      else (Machine.invoke program proc io steps host.store).2.answer := by
  rw [outcome_congr (callModule_apply isStage proc io steps)]
  split
  · rfl
  · rw [outcome_tryCatch_throw, outcome_invokeProgram]
    intro error host
    cases error <;> exact ⟨_, rfl⟩

/-- A module with an executable form keeps it. -/
theorem unpackModule_compiled (isStage : host.stage key id = .compiled module program) :
    unpackModule key id host = .ok () host := by
  unfold unpackModule
  rw [get_bind_apply, isStage]
  rfl

/-- A module that has not been destroyed can be asked to discard the executable form. -/
theorem outcome_packModule (living : host.stage key id ≠ .destroyed) :
    host.outcome (packModule key id) = .ok () := by
  rcases packModule_cases host key id with
    ⟨_, -, done⟩ | ⟨_, _, _, _, -, done⟩ | ⟨isStage, -⟩
  · exact outcome_ok done
  · exact outcome_ok done
  · exact absurd isStage living

/-- **Asking for an executable form that is not there.** It fails and changes nothing, or the module
has one, and every persistent register starts anew. -/
theorem unpackModule_structural (isStage : host.stage key id = .structural module)
    (wellFormed : module.WellFormed) :
    (∃ error, unpackModule key id host = .error error host) ∨
    ∃ program after, unpackModule key id host = .ok () after ∧
      after.stage key id = .compiled module program ∧
      Renewed module program host.store after.store := by
  rcases unpackModule_cases host key id with
    ⟨_, _, isCompiled, -⟩ | ⟨other, depth, program, store, events, isOther, -, compiled, done⟩ |
      failed
  · rw [isStage] at isCompiled
    cases isCompiled
  · obtain rfl : module = other := Stage.structural.inj (isStage.symm.trans isOther)
    refine .inr ⟨program, _, done, ?_, renewed_of_compile wellFormed compiled⟩
    obtain ⟨registry, entry, found, isEntry, -⟩ := exists_entry_of_stage isStage (by simp)
    refine stage_modifyEntry (fun entry => { entry with stage := .compiled module program }) ?_
      (by intro entry; rfl) isEntry
    show (host.registries.modify key _).get? key = _
    rw [Slots.get?_modify, if_pos rfl, found]
    rfl
  · exact .inl failed

end

section
variable {host : Host} {party : Party} {subject : ModuleRef} {registry : Registry} {entry : Entry}
  {module : Module} {deeds : List Deed}

/-- **A module that has not been destroyed serves every party.** -/
theorem serves_of_shows (speaks : host.subject? party = some subject)
    (isRegistry : host.registries.get? subject.registry = some registry)
    (isEntry : registry.find? subject.module = some entry) (living : entry.destroyed = false)
    (shows : Books.Shows deeds module entry.stage) (wellFormed : module.WellFormed) :
    host.Serves party subject module deeds := by
  have isStage := stage_eq isRegistry isEntry
  have asks := ask_eq speaks isRegistry isEntry living
  have isModule : entry.stage.module? = some module := by
    rcases shows with ⟨same, -⟩ | ⟨program, same, -⟩ <;> rw [same] <;> rfl
  have structural : lastForm deeds ≠ some .unpacked → entry.stage = .structural module := by
    intro packed
    rcases shows with ⟨same, -⟩ | ⟨program, -, unpacked⟩
    · exact same
    · exact absurd unpacked packed
  have unpacks : ∃ middle, Alike subject.registry subject.module host middle ∧
      host.outcome (ask party .unpack) =
        (middle.outcome (unpackModule subject.registry subject.module)).map (fun _ => .done) ∧
      host.after (ask party .unpack) =
        middle.after (unpackModule subject.registry subject.module) := by
    obtain ⟨middle, alike, ends, after⟩ := asks .unpack (by simp)
    refine ⟨middle, alike, ends.trans ?_, after.trans ?_⟩
    · exact outcome_bind_pure middle (unpackModule _ _) fun _ => Answer.done
    · exact after_bind_pure middle (unpackModule _ _) fun _ => Answer.done
  refine ⟨?_, ?_, ?_, ?_, ?_, ?_, ?_, ?_, ?_⟩
  · obtain ⟨middle, alike, ends, -⟩ := asks .describe (by simp)
    rw [ends]
    show middle.outcome (describeModule _ _ >>= fun module => pure (Answer.description module)) = _
    rw [outcome_bind_pure, outcome_describeModule (by rw [alike.stage, isStage, isModule])]
    rfl
  · obtain ⟨middle, alike, ends, -⟩ := asks .isCompiled (by simp)
    rw [ends]
    show middle.outcome (isCompiledModule _ _ >>= fun compiled => pure (Answer.form compiled)) = _
    rw [outcome_bind_pure, outcome_isCompiledModule (alike.stage.trans isStage ▸ shows)]
    rfl
  · obtain ⟨middle, alike, ends, -⟩ := asks .pack (by simp)
    rw [ends]
    show middle.outcome (packModule _ _ >>= fun _ => pure Answer.done) = _
    rw [outcome_bind_pure, outcome_packModule (alike.stage.trans isStage ▸ shows.ne_destroyed)]
    rfl
  · exact outcome_destroy speaks isRegistry isEntry living shows.ne_destroyed
  · intro packed proc io steps
    obtain ⟨middle, alike, ends, after⟩ :=
      asks (.call proc io steps) (by simp)
    have fails := callModule_structural (alike.stage.trans (isStage.trans (structural packed)))
      proc io steps
    rw [ends, after]
    show middle.outcome (callModule _ _ proc io steps >>= fun status =>
        pure (Answer.status status)) = _ ∧
      (middle.after (callModule _ _ proc io steps >>= fun status =>
        pure (Answer.status status))).store = _
    rw [outcome_bind_pure, after_bind_pure, outcome_error fails, ← alike.store]
    unfold Host.after
    rw [fails]
    exact ⟨rfl, rfl⟩
  · intro unpacked
    rcases shows with ⟨-, packed⟩ | ⟨program, same, -⟩
    · exact absurd unpacked packed
    · refine ⟨program, isStage.trans same, fun proc io steps => ?_⟩
      obtain ⟨middle, alike, ends, -⟩ :=
        asks (.call proc io steps) (by simp)
      rw [ends]
      show middle.outcome (callModule _ _ proc io steps >>= fun status =>
        pure (Answer.status status)) = _
      rw [outcome_bind_pure, outcome_callModule (alike.stage.trans (isStage.trans same)),
        alike.store]
      split <;> rfl
  · intro error failed
    obtain ⟨middle, alike, ends, after⟩ := unpacks
    rw [ends] at failed
    rw [after]
    rcases shows with ⟨same, packed⟩ | ⟨program, same, -⟩
    · have stageMiddle := alike.stage.trans (isStage.trans same)
      rcases unpackModule_structural stageMiddle wellFormed with
        ⟨cause, fails⟩ | ⟨program, last, done, -⟩
      · unfold Host.after
        rw [fails]
        exact ⟨packed, stageMiddle, alike.store⟩
      · rw [outcome_ok done] at failed
        cases failed
    · rw [outcome_ok (unpackModule_compiled (alike.stage.trans (isStage.trans same)))] at failed
      cases failed
  · intro program isCompiled
    obtain ⟨middle, alike, ends, after⟩ := unpacks
    have done := unpackModule_compiled (alike.stage.trans isCompiled)
    rw [ends, after, outcome_ok done]
    unfold Host.after
    rw [done]
    exact ⟨rfl, alike.stage.trans isCompiled, alike.store⟩
  · intro packed done
    obtain ⟨middle, alike, ends, after⟩ := unpacks
    rw [ends] at done
    rw [after, ← alike.store]
    have stageMiddle := alike.stage.trans (isStage.trans (structural packed))
    rcases unpackModule_structural stageMiddle wellFormed with
      ⟨cause, fails⟩ | ⟨program, last, compiles, isCompiled, renewed⟩
    · rw [outcome_error fails] at done
      cases done
    · unfold Host.after
      rw [compiles]
      exact ⟨program, isCompiled, renewed⟩

/-- The life of a module that has not been destroyed. -/
theorem lives_of_living (speaks : host.subject? party = some subject)
    (isRegistry : host.registries.get? subject.registry = some registry)
    (isEntry : registry.find? subject.module = some entry) (living : entry.destroyed = false)
    (never : .destroyed ∉ deeds) (shows : Books.Shows deeds module entry.stage)
    (wellFormed : module.WellFormed) : host.Lives party subject module deeds := by
  refine ⟨?_, iff_of_false ?_ never, iff_of_false ?_ never, fun _ => ?_,
    fun destroyed => absurd destroyed never⟩
  · rw [List.count_eq_zero_of_not_mem never]
    omega
  · rw [stage_eq isRegistry isEntry]
    exact shows.ne_destroyed
  · rw [registry_eq isRegistry, Registry.isDestroyed, isEntry]
    simp [living]
  · exact serves_of_shows speaks isRegistry isEntry living shows wellFormed

/-- The life of a module that has been destroyed. -/
theorem lives_of_destroyed (speaks : host.subject? party = some subject)
    (once : deeds.count .destroyed = 1)
    (gone : host.stage subject.registry subject.module = .destroyed)
    (flag : (host.registry subject.registry).isDestroyed subject.module = true)
    (lost : (host.registry subject.registry).retain? subject.module = none) :
    host.Lives party subject module deeds := by
  have destroyed : .destroyed ∈ deeds := List.count_pos_iff.mp (by omega)
  exact ⟨Nat.le_of_eq once, iff_of_true gone destroyed, iff_of_true flag destroyed,
    fun never => absurd destroyed never, fun _ => outcome_destroyed speaks gone lost⟩

end

end Host

/-- **Modules follow their lifecycle.** After every history, a registered module gives every party
its description until it is destroyed; it is destroyed once, by whoever asks for it first, and not
found from then on; both marks of destruction agree with this. Before, it is compiled exactly if the
last that was asked for and granted was an executable form, calls reach that form and nothing else,
a compiled module keeps what its persistent registers hold, and one that is compiled anew starts
with fresh ones. -/
theorem follows_lifecycle {turns : List Turn} {host : Host} (history : History turns host)
    {party : Party} {subject : ModuleRef} (speaks : host.subject? party = some subject)
    {module : Module}
    (registered : .registered module ∈ record turns subject.registry subject.module) :
    host.Lives party subject module (record turns subject.registry subject.module) := by
  have orderly := history.settled.orderly
  have has := Host.has_of_subject? orderly.grounded speaks
  obtain ⟨registry, found⟩ := Option.isSome_iff_exists.mp has
  have agrees := orderly.agrees subject.module has
  rw [Tables.books_eq found] at agrees
  have wellFormed : module.WellFormed := by
    obtain ⟨builder, reachable, -, rfl⟩ := history.exists_builder registered
    exact reachable.wellFormed.module.withId _
  generalize isEntry : registry.find? subject.module = entry at agrees
  generalize host.tables.liveRefs subject.registry subject.module = live at agrees
  generalize record turns subject.registry subject.module = deeds at agrees registered ⊢
  cases agrees with
  | unknown => cases registered
  | living named never flag shows counted =>
      obtain rfl := (named module).mp registered
      exact Host.lives_of_living speaks found isEntry flag never shows wellFormed
  | lingering named once flag stage counted =>
      refine Host.lives_of_destroyed speaks once ?_ ?_ ?_
      · rw [Host.stage_eq found isEntry, stage]
      · rw [Host.registry_eq found, Registry.isDestroyed, isEntry]
        exact flag
      · rw [Host.registry_eq found, Registry.retain?, isEntry]
        simp [flag]
  | erased named once =>
      refine Host.lives_of_destroyed speaks once ?_ ?_ ?_
      · rw [Host.stage, Host.registry_eq found, isEntry]
        rfl
      · rw [Host.registry_eq found, Registry.isDestroyed, isEntry]
        rfl
      · rw [Host.registry_eq found, Registry.retain?, isEntry]

/-! ### A counter -/

namespace Samples

/-- The identity of the counter. -/
def counter : ModuleId := ⟨2⟩

/-- The register with a given number. -/
def reg (index : Nat) : RegId := (RegId.ofIndex? index).getD RegId.error

/-- The calls that build the counter: a persistent register that starts at seven, and a procedure
that adds one to it and returns it. -/
def counterCalls : List Builder.Call :=
  [.constReg VarTypeId.word #[7, 0, 0, 0, 0, 0, 0, 0], .reg VarTypeId.word 0 Flags.empty,
    .procType entryFlags (reg 2), .proc Flags.empty ⟨0⟩, .instruction entry (.inc (reg 1)),
    .instruction entry (.cpb (reg 2) (reg 1)),
    .instruction entry .ret]

/-- The counter. -/
def counterModule : Module :=
  { (counterCalls.foldl Builder.Call.perform Builder.initial).module with id := counter }

/-- The counter is built, registered, compiled and called, and its executable form is discarded. -/
def counting : List Host.Request :=
  [.newRegistry (.interpreter 10), .newBuilder 0] ++ counterCalls.map (.build 0) ++
    [.create 0 counter, .newHandle 0 counter, .newVariable 0 VarTypeId.word 1,
      .ask (.handle 0) .unpack, .ask (.handle 0) (.call entry 0 10), .ask (.handle 0) .pack]

end Samples

/-- The counter starts anew when it is compiled again. -/
theorem counting_renewed : ∃ turns host program,
    advance Samples.counting [] Host.empty = some (turns, host) ∧
      record turns 0 Samples.counter =
        [.packed, .unpacked, .registered Samples.counterModule] ∧
      (host.after (Host.ask (.handle 0) .unpack)).stage 0 Samples.counter =
        .compiled Samples.counterModule program ∧
      Renewed Samples.counterModule program host.store
        (host.after (Host.ask (.handle 0) .unpack)).store := by
  have runs : (advance Samples.counting [] Host.empty).isSome = true := by decide +kernel
  obtain ⟨⟨turns, host⟩, advanced⟩ := Option.isSome_iff_exists.mp runs
  have speaks : (advance Samples.counting [] Host.empty).all fun result =>
      result.2.subject? (.handle 0) = some ⟨0, Samples.counter⟩ := by decide +kernel
  have happened : (advance Samples.counting [] Host.empty).all fun result =>
      record result.1 0 Samples.counter =
        [.packed, .unpacked, .registered Samples.counterModule] := by decide +kernel
  have unpacks : (advance Samples.counting [] Host.empty).all fun result =>
      (result.2.outcome (Host.ask (.handle 0) .unpack)).toOption = some .done := by decide +kernel
  simp only [advanced, Option.all_some, decide_eq_true_eq] at speaks happened unpacks
  have registered : .registered Samples.counterModule ∈ record turns 0 Samples.counter := by
    simp [happened]
  have lives := follows_lifecycle (history_of_advance .start advanced) speaks registered
  dsimp only at lives
  rw [happened] at lives
  have done : host.outcome (Host.ask (.handle 0) .unpack) = .ok .done := by
    cases ends : host.outcome (Host.ask (.handle 0) .unpack) with
    | error error =>
        rw [ends] at unpacks
        cases unpacks
    | ok answer =>
        rw [ends] at unpacks
        exact congrArg Except.ok (Option.some.inj unpacks)
  obtain ⟨program, isCompiled, renewed⟩ := (lives.serves (by decide)).renews (by decide) done
  exact ⟨turns, host, program, advanced, happened, isCompiled, renewed⟩

end ScopeMachine
