import ScopeMachine.Proofs.Lifecycle
import ScopeMachine.Proofs.Reclaiming
import ScopeMachine.Proofs.Words
import ScopeMachine.Samples

/-! # Modules that a host has loaded

What a program outside does with a module that is compiled: it makes variables, puts words into
them, calls a procedure and looks at the words again.

* `Samples.Offers` says what a host must offer, and `Offers.exists_loaded` that unpacking then
  leaves the module `Host.Loaded`;
* `Loaded.newVariable` makes a variable, `exists_setWord` puts a word into one, and
  `loadWords_ofWords` takes all of them out;
* `Loaded.call_returned` and `Loaded.call_unfinished` take what a call comes to over to the host. -/

namespace ScopeMachine

namespace Host

section
variable {α : Type} {host : Host}

/-- A look at the host that succeeds. -/
theorem inspect_eq_ok {look : Host → Except Error α} {value : α} (seen : look host = .ok value) :
    inspect look host = .ok value host := by
  unfold inspect
  rw [get_bind_apply, seen]
  rfl

/-- An action that ends with a value leaves a host. -/
theorem exists_of_outcome {action : HostM α} {value : α} (ended : host.outcome action = .ok value) :
    ∃ after, action host = .ok value after := by
  unfold outcome at ended
  cases ran : action host with
  | ok other after =>
      rw [ran] at ended
      cases ended
      exact ⟨after, rfl⟩
  | error error after =>
      rw [ran] at ended
      cases ended

/-- Holding a variable meanwhile does not change how an action ends. -/
theorem outcome_holding (host : Host) (var : VarId) (action : HostM α) :
    host.outcome (Samples.holding var action) = host.outcome action := by
  unfold outcome Samples.holding
  rw [bind_apply, tryCatch_apply, bind_apply]
  cases action host <;> rfl

/-- Reclaiming leaves the variables that are held. -/
theorem get?_reclaim {var : VarId} (held : var ∈ host.held) :
    (host.store.reclaim host.roots).get? var = host.store.get? var := by
  refine (Store.prunes_reclaim host.store host.roots).kept ?_
  unfold roots
  rw [List.append_assoc]
  exact List.mem_append_left _ held

end

/-- A handle has been resolved, and its module has been compiled. -/
structure Loaded (key : Nat) (handle : Handle) (module : Module) (program : Program)
    (host : Host) : Prop where
  /-- The handle has been resolved. -/
  resolved : host.handles.get? key = some { handle with resolved := true }
  /-- The module has been compiled. -/
  stage : host.stage handle.registry handle.module = .compiled module program

end Host

namespace Samples

/-! ### Unpacking -/

/-- The module of a handle has not been destroyed, and is compiled, or has been, for at most `depth`
nested calls. -/
structure Offers (host : Host) (handle : Handle) (module : Module) (depth : Nat) : Prop where
  /-- The registry compiles for that many nested calls. -/
  backend : (host.registry handle.registry).backend = .interpreter depth
  /-- The module has not been destroyed. -/
  living : (host.registry handle.registry).isDestroyed handle.module = false
  /-- The module is there without or with an executable form. -/
  stage : host.stage handle.registry handle.module = .structural module ∨
    ∃ program before after, host.stage handle.registry handle.module = .compiled module program ∧
      Program.compile module depth before = .ok program after

section
variable {host : Host} {key depth : Nat} {handle : Handle} {module : Module} {program : Program}

/-- The handle of a module that is offered can be resolved. -/
theorem Offers.exists_resolve (offers : Offers host handle module depth)
    (found : host.handles.get? key = some handle) :
    ∃ middle, Host.resolve key host = .ok { handle with resolved := true } middle ∧
      middle.handles.get? key = some { handle with resolved := true } ∧
      Host.Alike handle.registry handle.module host middle := by
  have notDestroyed : host.stage handle.registry handle.module ≠ .destroyed := by
    rcases offers.stage with isStage | ⟨_, _, _, isStage, -⟩ <;> rw [isStage] <;> simp
  obtain ⟨registry, entry, isRegistry, isEntry, -⟩ := Host.exists_entry_of_stage rfl notDestroyed
  have living : entry.destroyed = false := by
    have living := offers.living
    rw [Host.registry_eq isRegistry, Registry.isDestroyed, isEntry] at living
    exact living
  obtain ⟨middle, resolves, alike⟩ := Host.resolve_living found isRegistry isEntry living
  exact ⟨middle, resolves, Host.get?_of_resolve found resolves, alike⟩

/-- A module without an executable form is compiled, where that allocates nothing. -/
theorem exists_unpackModule {registry : Nat} {id : ModuleId}
    (isStage : host.stage registry id = .structural module)
    (backend : (host.registry registry).backend = .interpreter depth)
    (compiles : Program.compile module depth host.store = .ok program host.store) :
    ∃ after, Host.unpackModule registry id host = .ok () after ∧ after.handles = host.handles ∧
      after.stage registry id = .compiled module program := by
  let after : Host :=
    { host with
      registries := host.registries.modify registry (·.setStage id (.compiled module program))
      events := .unpacked id (Backend.interpreter depth).name ::
        .compiled module.id program.procs.size :: host.events }
  have done : Host.unpackModule registry id host = .ok () after := by
    unfold Host.unpackModule
    rw [get_bind_apply, isStage]
    dsimp only
    rw [get_bind_apply, backend]
    dsimp only
    rw [bind_apply, Host.compile_apply, compiles]
    rfl
  obtain ⟨found, entry, isRegistry, isEntry, -⟩ := Host.exists_entry_of_stage isStage (by simp)
  have changed : after.registries.get? registry =
      some (found.setStage id (.compiled module program)) := by
    show (host.registries.modify registry _).get? registry = _
    rw [Slots.get?_modify, if_pos rfl, isRegistry]
    rfl
  exact ⟨after, done, rfl, Host.stage_modifyEntry _ changed (fun _ => rfl) isEntry⟩

/-- **Unpacking** loads a module that is offered. -/
theorem Offers.exists_loaded (offers : Offers host handle module depth)
    (found : host.handles.get? key = some handle)
    (compiles : ∀ store, Program.compile module depth store = .ok program store) :
    ∃ after, Host.unpack key host = .ok () after ∧ after.Loaded key handle module program := by
  obtain ⟨middle, resolves, isHandle, alike⟩ := offers.exists_resolve found
  have unpacks : Host.unpack key host =
      Host.unpackModule handle.registry handle.module middle := by
    unfold Host.unpack
    rw [bind_apply, resolves]
  -- compiling depends on neither store nor host, so both cases lead to the same program
  rcases offers.stage with isStage | ⟨other, before, last, isStage, compiled⟩
  · obtain ⟨after, done, handles, isCompiled⟩ := exists_unpackModule
      (alike.stage.trans isStage) (alike.backend.trans offers.backend) (compiles middle.store)
    exact ⟨after, unpacks.trans done, handles ▸ isHandle, isCompiled⟩
  · rw [compiles before] at compiled
    cases compiled
    have isCompiled := alike.stage.trans isStage
    exact ⟨middle, unpacks.trans (Host.unpackModule_compiled isCompiled), isHandle, isCompiled⟩

end

/-! ### Words -/

section
variable {host : Host} {layout : Layout} {var : VarId} {words : List Int64}

/-- A word is put into a variable that holds words. -/
theorem exists_setWord (holds : layout.HoldsWords)
    (found : host.store.get? var = some (Variable.ofWords layout words)) {index : Nat}
    (inside : index < words.length) (word : Int64) :
    ∃ store, Host.setWord var index word host = .ok () { host with store } ∧
      store.get? var = some (Variable.ofWords layout (words.set index word)) := by
  refine ⟨host.store.modify var (·.putWord index word), ?_, ?_⟩
  · refine bind_apply_eq_ok.mpr ⟨(), host, Host.inspect_eq_ok ?_, rfl⟩
    rw [found]
    exact if_pos (Variable.hasWord_ofWords holds inside)
  · rw [Slots.get?_modify, if_pos rfl, found, Option.map_some, Variable.putWord_ofWords holds]

/-- The words of a variable that holds words. -/
theorem loadWords_ofWords (holds : layout.HoldsWords)
    (found : host.store.get? var = some (Variable.ofWords layout words)) :
    loadWords var host = .ok words host := by
  unfold loadWords
  rw [get_bind_apply, found, Option.map_some, Variable.words_ofWords holds]
  rfl

end

end Samples

/-! ### Loaded modules -/

namespace Host.Loaded

variable {host after : Host} {key : Nat} {handle : Handle} {module : Module} {program : Program}

/-- Only the handles and the registries matter. -/
theorem of_same (loaded : host.Loaded key handle module program)
    (handles : after.handles = host.handles) (registries : after.registries = host.registries) :
    after.Loaded key handle module program := by
  refine ⟨handles ▸ loaded.resolved, ?_⟩
  rw [← loaded.stage]
  unfold Host.stage Host.registry
  rw [registries]

/-- Resolving the handle once more changes nothing. -/
theorem resolve (loaded : host.Loaded key handle module program) :
    Host.resolve key host = .ok { handle with resolved := true } host := by
  rw [resolve_apply loaded.resolved]
  rfl

/-- A fresh variable of a type of the module. -/
theorem newVariable (loaded : host.Loaded key handle module program) {vtype : VarTypeId}
    {type : VarType} {count resolved : Nat} (isType : module.requireVtype vtype = .ok type)
    (counts : Layout.resolveCount ⟨vtype, type⟩ count = .ok resolved)
    (small : resolved * Layout.elementBytes ⟨vtype, type⟩ < UInt32.size) :
    Host.newVariable key vtype count host = .ok host.store.next
      { host with
        store := host.store.insert (Variable.zeroed ⟨vtype, type⟩ resolved)
        held := host.store.next :: host.held } := by
  have described : Host.describe key host = .ok module host := by
    unfold Host.describe
    rw [bind_apply, loaded.resolve]
    exact inspect_eq_ok (by rw [loaded.stage]; rfl)
  have typed : Host.vtype key vtype host = .ok type host := by
    unfold Host.vtype
    rw [bind_apply, described]
    exact inspect_eq_ok isType
  unfold Host.newVariable
  rw [bind_apply, typed]
  dsimp only
  rw [bind_apply, inspect_eq_ok counts]
  exact (congrFun (if_neg (Nat.not_le.mpr small)) host).trans rfl

section
variable {proc : ProcId}

/-- How a call of an entry point ends. -/
theorem outcome_call (loaded : host.Loaded key handle module program)
    (isEntry : (program.entryPoint? proc).isNone = false) (argument : VarId) (steps : Nat) :
    host.outcome (Host.call key proc argument steps) =
      (Machine.invoke program proc argument steps host.store).2.answer := by
  unfold Host.call
  rw [outcome_bind_ok loaded.resolve, outcome_callModule loaded.stage, isEntry]
  rfl

/-- A call that has not come to an end. -/
theorem call_unfinished (loaded : host.Loaded key handle module program)
    (isEntry : (program.entryPoint? proc).isNone = false) {argument : VarId} {steps : Nat}
    (running : (Machine.invoke program proc argument steps host.store).2 = .running) :
    ∃ after, Host.call key proc argument steps host = .ok .unfinished after := by
  refine exists_of_outcome ?_
  rw [loaded.outcome_call isEntry, running]
  rfl

/-- A call that returns leaves in a variable that is held what the machine has left there. -/
theorem call_returned (loaded : host.Loaded key handle module program)
    (isEntry : (program.entryPoint? proc).isNone = false) {argument var : VarId} {steps : Nat}
    {machine : Machine} (held : var ∈ host.held)
    (returns : Machine.invoke program proc argument steps host.store = (machine, .returned)) :
    ∃ after, Host.call key proc argument steps host = .ok .returned after ∧
      after.store.get? var = machine.store.get? var := by
  let settled : Host :=
    { host with
      store := machine.store
      events := machine.events ++ host.events }
  have invokes : Host.invokeProgram program proc argument steps host =
      .ok .returned { settled with store := settled.store.reclaim settled.roots } := by
    show Host.settle (Machine.invoke program proc argument steps host.store).1
      (Machine.invoke program proc argument steps host.store).2
      { host with store := Slots.empty } = _
    rw [returns]
    rfl
  refine ⟨{ settled with store := settled.store.reclaim settled.roots }, ?_, ?_⟩
  · unfold Host.call
    rw [bind_apply, loaded.resolve]
    dsimp only
    rw [callModule_apply loaded.stage, isEntry, if_neg Bool.false_ne_true, tryCatch_apply,
      invokes]
  · have heldSettled : var ∈ settled.held := held
    exact get?_reclaim heldSettled

end

end Host.Loaded

end ScopeMachine
