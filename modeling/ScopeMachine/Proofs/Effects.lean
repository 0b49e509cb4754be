import ScopeMachine.Proofs.Easing
import ScopeMachine.Proofs.Typing

/-! # What requests do to variables

The requests that make or change variables are few: a program runs, a module is compiled, a variable
is made or edited, a reference is stored.

* `Variable.Edits` says that a variable has been changed, apart from its shape and its owned slots;
* `Host.ask_cases` says that a module does the same for every party, as far as variables go;
* `Host.Changes` lists what requests make of the store before anything is let go;
* `Host.Effect` adds what asking for an executable form leads to, and `Host.effect_of_request` says
  that there is nothing else. -/

namespace ScopeMachine

/-! ### Edits -/

/-- A variable has been changed, apart from its shape and its owned slots. -/
structure Variable.Edits (old new : Variable) : Prop where
  /-- The layout is kept. -/
  layout : new.layout = old.layout
  /-- The number of elements is kept. -/
  count : new.count = old.count
  /-- The owned slots are kept. -/
  owned : new.owned = old.owned
  /-- The arrays stay as long as the shape says. -/
  sized : old.Sized → new.Sized

namespace Variable

variable {var changed : Variable}

/-- An edit brings no references. -/
theorem Edits.revises (edits : var.Edits changed) {Brings : VarId → Prop} :
    var.Revises changed Brings :=
  ⟨edits.layout, edits.count, edits.sized, fun _ member => .inl (edits.owned ▸ member)⟩

/-- Writing bytes. -/
theorem edits_writeBytes (var : Variable) (element position : Nat) (bytes : Array UInt8) :
    var.Edits (var.writeBytes element position bytes) :=
  ⟨rfl, rfl, rfl, fun sized => sized.writeBytes element position bytes⟩

/-- Storing a native. -/
theorem edits_of_setNativeRef {element slot : Nat} {native : Option Native}
    (stored : var.setNativeRef element slot native = .ok changed) : var.Edits changed := by
  unfold setNativeRef at stored
  split at stored
  · cases stored
    exact ⟨rfl, rfl, rfl, fun sized =>
      ⟨sized.payload, sized.owned, Array.size_setIfInBounds.trans sized.natives⟩⟩
  · cases stored

/-- Applying a native. -/
theorem edits_of_applyNative {native : Native} (applied : var.applyNative native = .ok changed) :
    var.Edits changed := by
  cases native with
  | bump =>
      unfold applyNative setWord at applied
      dsimp only at applied
      split at applied
      · cases applied
        exact var.edits_writeBytes 0 0 _
      · cases applied
  | zero =>
      cases applied
      exact ⟨rfl, rfl, rfl, fun sized =>
        ⟨Array.size_replicate.trans sized.payload, sized.owned, sized.natives⟩⟩
  | fail => cases applied
  | load name bytes =>
      cases applied
      exact ⟨rfl, rfl, rfl, fun sized => sized.copyPayload bytes⟩

end Variable

namespace Host

/-! ### Asking -/

/-- Two hosts have the same variables and hold the same ones, and every module is in the same
stage. -/
structure SameForms (before after : Host) : Prop where
  /-- The variables are the same. -/
  store : after.store = before.store
  /-- The same ones are held. -/
  roots : after.roots = before.roots
  /-- The stages are the same. -/
  stage : ∀ key id, after.stage key id = before.stage key id

/-- Nothing has changed. -/
theorem SameForms.refl (host : Host) : SameForms host host := ⟨rfl, rfl, fun _ _ => rfl⟩

/-- Nothing has gone, either. -/
theorem SameForms.eases {before after : Host} (same : SameForms before after) :
    before.Eases after :=
  eases_of_store same.store fun isStage => (same.stage _ _).symm.trans isStage

section
variable {host : Host} {key : Nat} {id : ModuleId}

/-- Taking a reference does not change what a registry holds. -/
theorem persistents_retain {registry retained : Registry}
    (retains : registry.retain? id = some retained) :
    retained.persistents = registry.persistents := by
  obtain ⟨entry, -, -, rfl⟩ := Registry.retain?_eq_some.mp retains
  unfold Registry.persistents Registry.modifyEntry
  rw [List.flatMap_map]
  congr 1
  funext entry
  split <;> rfl

/-- Taking a reference does not change what is held. -/
theorem roots_retain {after : Host} {retained : Registry}
    (retains : (host.registry key).retain? id = some retained) (held : after.held = host.held)
    (programs : after.programs = host.programs)
    (registries : after.registries = host.registries.modify key fun _ => retained) :
    after.roots = host.roots := by
  unfold registry at retains
  cases found : host.registries.get? key with
  | none =>
      rw [found] at retains
      cases retains
  | some registry =>
      rw [found] at retains
      obtain ⟨left, right, values, -, modified⟩ := Slots.exists_values_eq found
      unfold roots
      rw [held, programs, registries, modified, values]
      simp only [List.flatMap_append, List.flatMap_cons]
      rw [persistents_retain retains]
      rfl

/-- Taking a reference does not change the stage of any module. -/
theorem sameForms_retain {after : Host} {retained : Registry}
    (retains : (host.registry key).retain? id = some retained) (store : after.store = host.store)
    (held : after.held = host.held) (programs : after.programs = host.programs)
    (registries : after.registries = host.registries.modify key fun _ => retained) :
    SameForms host after := by
  refine ⟨store, roots_retain retains held programs registries, ?_⟩
  intro otherKey other
  unfold stage registry
  rw [registries, Slots.get?_modify]
  split
  next same =>
    subst same
    unfold registry at retains
    cases found : host.registries.get? otherKey with
    | none => rfl
    | some registry =>
        rw [found] at retains
        obtain ⟨entry, -, -, rfl⟩ := Registry.retain?_eq_some.mp retains
        show ((Registry.find? (Registry.modifyEntry _ _ _) _).map _).getD _ = _
        rw [Registry.find?_modifyEntry (by intro entry; rfl)]
        split
        · rw [Option.map_map]
          rfl
        · rfl
  next => rfl

/-- **Resolving a handle** fails and changes nothing, or does not change any stage. -/
theorem resolve_cases {handle : Handle} (found : host.handles.get? key = some handle) :
    (∃ error, error.kind ≠ .execution ∧ resolve key host = .error error host) ∨
      ∃ middle, SameForms host middle ∧
        resolve key host = .ok { handle with resolved := true } middle := by
  rw [resolve_apply found]
  cases resolved : handle.resolved with
  | true =>
      refine .inr ⟨host, .refl host, ?_⟩
      rw [if_pos rfl, ← resolved]
  | false =>
      rw [if_neg (by decide)]
      cases retains : (host.registry handle.registry).retain? handle.module with
      | none => exact .inl ⟨_, by simp [Error.kind], rfl⟩
      | some retained =>
          refine .inr ⟨_, ?_, rfl⟩
          exact sameForms_retain retains rfl rfl rfl rfl

/-- **Asking a module** fails and changes nothing, or is the same for every party. -/
theorem ask_cases {party : Party} {subject : ModuleRef} (errand : Errand)
    (speaks : host.subject? party = some subject) (notDestroy : errand ≠ .destroy) :
    (∃ error, error.kind ≠ .execution ∧ ask party errand host = .error error host) ∨
      ∃ middle, SameForms host middle ∧
        ask party errand host = errand.atModule subject.registry subject.module middle := by
  cases party with
  | ref key => exact .inr ⟨host, .refl host, ask_ref speaks errand⟩
  | handle key =>
      obtain ⟨handle, found, rfl⟩ := Option.map_eq_some_iff.mp speaks
      show (∃ error, error.kind ≠ .execution ∧ errand.atHandle key host = .error error host) ∨
        ∃ middle, SameForms host middle ∧ errand.atHandle key host = _
      rw [atHandle_eq notDestroy, bind_apply]
      rcases resolve_cases found with ⟨error, kind, failed⟩ | ⟨middle, same, resolves⟩
      · rw [failed]
        exact .inl ⟨error, kind, rfl⟩
      · rw [resolves]
        exact .inr ⟨middle, same, rfl⟩

/-! ### Calls -/

/-- What a machine did is taken over. -/
theorem eases_settle (host : Host) (machine : Machine) (completion : Machine.Completion) :
    Eases { host with store := machine.store } (host.after (settle machine completion)) := by
  have reports : Eases { host with store := machine.store }
      { host with store := machine.store, events := machine.events ++ host.events } :=
    eases_same rfl rfl
  have lets := eases_reclaim
    { host with store := machine.store, events := machine.events ++ host.events }
  refine Order.trans reports ?_
  cases completion <;> exact lets

/-- What an action leads to goes on if an error that it ends in is reported. -/
theorem Eases.tryCatch {α : Type} {before : Host} {action : HostM α} {handler : Error → HostM α}
    (eases : before.Eases (host.after action)) (next : ∀ error, Obeys Eases (handler error)) :
    before.Eases (host.after (tryCatch action handler)) := by
  unfold after at eases
  cases ran : action host with
  | ok value middle =>
      rw [ran] at eases
      rw [after_tryCatch_ok ran]
      exact eases
  | error error middle =>
      rw [ran] at eases
      rw [after_tryCatch_error ran]
      exact Order.trans eases (next error middle)

/-- Actions with the same result lead to the same host. -/
theorem after_congr {α : Type} {other : Host} {action second : HostM α}
    (same : action host = second other) : host.after action = other.after second := by
  unfold after
  rw [same]

/-- An action that fails leads to the host that it leaves. -/
theorem after_error {α : Type} {other : Host} {action : HostM α} {error : Error}
    (failed : action host = .error error other) : host.after action = other := by
  unfold after
  rw [failed]

/-- Running an entry point does to the store what its program does. -/
theorem eases_invokeProgram (program : Program) (proc : ProcId) (io : VarId) (steps : Nat) :
    Eases { host with store := (Machine.invoke program proc io steps host.store).1.store }
      (host.after (invokeProgram program proc io steps)) :=
  eases_settle { host with store := Slots.empty }
    (Machine.invoke program proc io steps host.store).1
    (Machine.invoke program proc io steps host.store).2

/-- **A call of a compiled module** does to the store what its program does, or nothing. -/
theorem eases_callModule {module : Module} {program : Program}
    (isStage : host.stage key id = .compiled module program) (proc : ProcId) (io : VarId)
    (steps : Nat) :
    host.Eases (host.after (callModule key id proc io steps)) ∨
      Eases { host with store := (Machine.invoke program proc io steps host.store).1.store }
        (host.after (callModule key id proc io steps)) := by
  rw [after_congr (callModule_apply isStage proc io steps)]
  split
  · exact .inl (Order.refl host)
  · refine .inr (Eases.tryCatch (eases_invokeProgram program proc io steps) ?_)
    intro error
    refine Obeys.bind ?_ fun _ => obeys_throw error
    split
    · exact eases_emit _
    · exact obeys_pure _

/-! ### Variables -/

/-- What follows a look at the host. -/
theorem after_inspect_bind {α β : Type} (host : Host) (look : Host → Except Error α)
    (second : α → HostM β) :
    host.after (inspect look >>= second) =
      match look host with
      | .ok value => host.after (second value)
      | .error _ => host := by
  rw [after_bind]
  unfold inspect
  rw [get_bind_apply]
  cases look host <;> rfl

/-- Variables are made for the types of a module. -/
theorem makes_of_resolveCount {module : Module} {vtype : VarTypeId} {type : VarType}
    {count resolved : Nat} (found : module.requireVtype vtype = .ok type)
    (resolves : Layout.resolveCount ⟨vtype, type⟩ count = .ok resolved) :
    module.Makes ⟨vtype, type⟩ resolved := by
  refine ⟨type, orError_eq_ok.mp found, rfl, ?_⟩
  intro fixed
  unfold Layout.resolveCount Layout.fixedCount? Shape.ofType at resolves
  dsimp only at resolves
  rw [fixed, if_neg (by decide)] at resolves
  dsimp only at resolves
  split at resolves
  · cases resolves
    rfl
  · cases resolves

/-- **Making a variable of a type** fails and changes nothing, or a variable enters that the module
makes, with a payload that can be counted. -/
theorem newVariable_cases {handle : Handle} (found : host.handles.get? key = some handle)
    (vtype : VarTypeId) (count : Nat) :
    host.Eases (host.after (newVariable key vtype count)) ∨
      ∃ module layout size, (host.stage handle.registry handle.module).module? = some module ∧
        module.Makes layout size ∧ size * layout.elementBytes < UInt32.size ∧
        Eases { host with store := host.store.insert (Variable.zeroed layout size) }
          (host.after (newVariable key vtype count)) := by
  unfold newVariable Host.vtype describe
  rw [bind_assoc, bind_assoc, after_bind]
  rcases resolve_cases found with ⟨error, -, failed⟩ | ⟨middle, same, resolves⟩
  · rw [failed]
    exact .inl (Order.refl host)
  · rw [resolves]
    dsimp only
    -- from here on the host stays as it is until the variable enters
    unfold describeModule
    rw [after_inspect_bind]
    cases described : (middle.stage handle.registry handle.module).module? with
    | none => exact .inl same.eases
    | some module =>
        dsimp only [orError]
        rw [after_inspect_bind]
        cases isType : module.requireVtype vtype with
        | error error => exact .inl same.eases
        | ok type =>
            dsimp only
            rw [after_inspect_bind]
            cases isCount : Layout.resolveCount ⟨vtype, type⟩ count with
            | error error => exact .inl same.eases
            | ok size =>
                dsimp only
                split
                · exact .inl same.eases
                next small =>
                  rw [same.stage] at described
                  refine .inr ⟨module, _, size, described, makes_of_resolveCount isType isCount,
                    Nat.lt_of_not_le small, ?_⟩
                  refine eases_of_store ?_ ?_
                  · show middle.store.insert _ = _
                    rw [same.store]
                  · intro key id other program isStage
                    exact (same.stage key id).symm.trans isStage

/-- At most one variable has been edited. -/
def Retouches (host : Host) (id : VarId) (after : Host) : Prop :=
  after = host ∨ ∃ change : Variable → Variable,
    (∀ old, host.store.get? id = some old → old.Edits (change old)) ∧
      after = { host with store := host.store.modify id change }

/-- A change that is an edit. -/
theorem retouches_changeVar (host : Host) (id : VarId) {change : Variable → Except Error Variable}
    (edits : ∀ old new, change old = .ok new → old.Edits new) :
    host.Retouches id (host.after (changeVar id change)) := by
  unfold changeVar after
  rw [get_bind_apply]
  cases found : host.store.get? id with
  | none => exact .inl rfl
  | some old =>
      dsimp only
      cases changed : change old with
      | error error => exact .inl rfl
      | ok new =>
          refine .inr ⟨fun _ => new, ?_, rfl⟩
          intro other isOther
          obtain rfl : old = other := Option.some.inj (found.symm.trans isOther)
          exact edits old new changed

/-- **Every edit** edits at most one variable. -/
theorem retouches_edit (host : Host) (id : VarId) (edit : Edit) :
    host.Retouches id (host.after (edit.perform id)) := by
  cases edit with
  | word element value =>
      show host.Retouches id (host.after (setWord id element value))
      unfold setWord
      rw [after_inspect_bind]
      split
      · refine .inr ⟨_, ?_, rfl⟩
        intro old _
        exact old.edits_writeBytes element 0 _
      · exact .inl rfl
  | bytes element position written =>
      refine retouches_changeVar host id ?_
      intro old new changed
      split at changed
      · cases changed
        exact old.edits_writeBytes element position _
      · cases changed
        exact ⟨rfl, rfl, rfl, fun sized => sized⟩
  | native element slot stored =>
      exact retouches_changeVar host id fun _ _ => Variable.edits_of_setNativeRef
  | apply element slot =>
      show host.Retouches id (host.after (discard (applyNative id element slot)))
      rw [after_discard]
      unfold applyNative
      rw [after_bind]
      show host.Retouches id (host.after _)
      split
      · exact .inl rfl
      · rw [after_bind_pure]
        exact retouches_changeVar host id fun _ _ => Variable.edits_of_applyNative

/-- **Storing a reference** fails and changes nothing, or the reference is stored and what is not
needed is let go. -/
theorem setOwnedRef_cases (host : Host) (owner : VarId) (element slot : Nat)
    (referent : Option VarId) :
    host.after (setOwnedRef owner element slot referent) = host ∨
      ∃ store, host.store.setOwnedRef owner element slot referent = .ok store ∧
        Eases { host with store } (host.after (setOwnedRef owner element slot referent)) := by
  unfold setOwnedRef
  rw [after_inspect_bind]
  cases stored : host.store.setOwnedRef owner element slot referent with
  | error error => exact .inl rfl
  | ok store => exact .inr ⟨store, rfl, eases_reclaim { host with store }⟩

/-! ### Requests -/

/-- What a request makes of the store before anything is let go, apart from a request for an
executable form. -/
inductive Changes (host : Host) : Request → Store → Prop
  /-- Nothing changes. -/
  | nothing {request : Request} : Changes host request host.store
  /-- A program runs. -/
  | call {party : Party} {subject : ModuleRef} {module : Module} {program : Program} {proc : ProcId}
      {io : VarId} {steps : Nat} (speaks : host.subject? party = some subject)
      (isStage : host.stage subject.registry subject.module = .compiled module program)
      (known : (host.store.get? io).isSome = true) :
      Changes host (.ask party (.call proc io steps))
        (Machine.invoke program proc io steps host.store).1.store
  /-- A variable is made for a type of a module. -/
  | newVariable {handle : Nat} {vtype : VarTypeId} {count : Nat} {subject : ModuleRef}
      {module : Module} {layout : Layout} {size : Nat}
      (speaks : host.subject? (.handle handle) = some subject)
      (described : (host.stage subject.registry subject.module).module? = some module)
      (makes : module.Makes layout size) :
      Changes host (.newVariable handle vtype count)
        (host.store.insert (Variable.zeroed layout size))
  /-- A variable is made without a module. -/
  | newVar {layout : Layout} {count : Nat} :
      Changes host (.newVar layout count) (host.store.insert (Variable.zeroed layout count))
  /-- A variable is edited. -/
  | edit {id : VarId} {edit : Edit} {change : Variable → Variable}
      (edits : ∀ old, host.store.get? id = some old → old.Edits (change old)) :
      Changes host (.edit id edit) (host.store.modify id change)
  /-- A reference is stored. -/
  | setOwnedRef {owner : VarId} {element slot : Nat} {referent : Option VarId} {store : Store}
      (known : ∀ id, referent = some id → (host.store.get? id).isSome = true)
      (stored : host.store.setOwnedRef owner element slot referent = .ok store) :
      Changes host (.setOwnedRef owner element slot referent) store

/-- What a request leads to. -/
inductive Effect (host : Host) : Request → Host → Prop
  /-- The store is changed, and what is not needed is let go. -/
  | changes {request : Request} {store : Store} {after : Host}
      (changes : host.Changes request store) (eases : Eases { host with store } after) :
      Effect host request after
  /-- A module is compiled. -/
  | unpack {party : Party} {subject : ModuleRef} {module : Module} {maxCallDepth : Nat}
      {program : Program} {after : Host} (speaks : host.subject? party = some subject)
      (isStage : host.stage subject.registry subject.module = .structural module)
      (compiled : Program.compile module maxCallDepth host.store = .ok program after.store)
      (stages : ∀ {key : Nat} {id : ModuleId} {other : Module} {otherProgram : Program},
        after.stage key id = .compiled other otherProgram →
        host.stage key id = .compiled other otherProgram ∨
          (key = subject.registry ∧ id = subject.module ∧ other = module ∧
            otherProgram = program)) :
      Effect host (.ask party .unpack) after

/-- Nothing is changed, and what is not needed is let go. -/
theorem Eases.effect {after : Host} (eases : host.Eases after) {request : Request} :
    host.Effect request after :=
  .changes .nothing eases

/-- A module is brought to a stage, and no other is. -/
theorem stage_setStage {after : Host} {new : Stage} {target : ModuleId} {targetKey : Nat}
    (registries : after.registries = host.registries.modify targetKey (·.setStage target new))
    {module : Module} {program : Program}
    (isStage : after.stage key id = .compiled module program) :
    host.stage key id = .compiled module program ∨
      (key = targetKey ∧ id = target ∧ new = .compiled module program) := by
  obtain ⟨registry, entry, found, isEntry, isStage⟩ := stage_eq_compiled.mp isStage
  rw [registries, Slots.get?_modify] at found
  split at found
  next sameKey =>
    obtain ⟨old, isOld, rfl⟩ := Option.map_eq_some_iff.mp found
    replace isEntry : (old.modifyEntry target ({ · with stage := new })).find? id = some entry :=
      isEntry
    rw [Registry.find?_modifyEntry (by intro entry; rfl)] at isEntry
    split at isEntry
    next sameId =>
      obtain ⟨oldEntry, -, rfl⟩ := Option.map_eq_some_iff.mp isEntry
      exact .inr ⟨sameKey, sameId, isStage⟩
    next => exact .inl (stage_eq_compiled.mpr ⟨old, entry, isOld, isEntry, isStage⟩)
  next => exact .inl (stage_eq_compiled.mpr ⟨registry, entry, found, isEntry, isStage⟩)

/-- **Asking for an executable form** changes nothing, or a module is compiled. -/
theorem effect_unpack {party : Party} {subject : ModuleRef}
    (speaks : host.subject? party = some subject) :
    host.Effect (.ask party .unpack) (host.after (ask party .unpack)) := by
  rcases ask_cases .unpack speaks (by simp) with ⟨error, -, failed⟩ | ⟨middle, same, asks⟩
  · rw [after_error failed]
    exact Eases.effect (Order.refl host)
  · rw [after_congr asks]
    show host.Effect _ (middle.after (unpackModule _ _ >>= fun _ => pure Answer.done))
    rw [after_bind_pure]
    unfold after
    rcases unpackModule_cases middle subject.registry subject.module with
      ⟨_, _, -, done⟩ | ⟨module, depth, program, store, events, isStage, -, compiled, done⟩ |
        ⟨error, failed⟩
    · rw [done]
      exact same.eases.effect
    · rw [done]
      rw [same.stage] at isStage
      rw [same.store] at compiled
      refine .unpack speaks isStage compiled ?_
      intro key id other otherProgram isCompiled
      rcases stage_setStage rfl isCompiled with before | ⟨rfl, rfl, isProgram⟩
      · exact .inl ((same.stage key id).symm.trans before)
      · cases isProgram
        exact .inr ⟨rfl, rfl, rfl, rfl⟩
    · rw [failed]
      exact same.eases.effect

/-- **Calling a module** changes nothing, or its program runs. -/
theorem effect_call {party : Party} {subject : ModuleRef} {proc : ProcId} {io : VarId} {steps : Nat}
    (speaks : host.subject? party = some subject) (known : (host.store.get? io).isSome = true) :
    host.Effect (.ask party (.call proc io steps))
      (host.after (ask party (.call proc io steps))) := by
  rcases ask_cases (.call proc io steps) speaks (by simp) with
    ⟨error, -, failed⟩ | ⟨middle, same, asks⟩
  · rw [after_error failed]
    exact Eases.effect (Order.refl host)
  · rw [after_congr asks]
    show host.Effect _ (middle.after (callModule _ _ proc io steps >>= fun status =>
      pure (Answer.status status)))
    rw [after_bind_pure]
    have isStage := same.stage subject.registry subject.module
    cases form : host.stage subject.registry subject.module with
    | structural module =>
        unfold after
        rw [callModule_structural (isStage.trans form)]
        exact same.eases.effect
    | destroyed =>
        have refuses : callModule subject.registry subject.module proc io steps middle =
            .error (.missing (.destroyed subject.module)) middle := by
          unfold callModule
          rw [get_bind_apply, isStage, form]
          rfl
        unfold after
        rw [refuses]
        exact same.eases.effect
    | compiled module program =>
        rcases eases_callModule (isStage.trans form) proc io steps with eases | eases
        · exact Eases.effect (Order.trans same.eases eases)
        · refine .changes (.call speaks form known) (Order.trans ?_ eases)
          refine eases_of_store ?_ ?_
          · show (Machine.invoke program proc io steps middle.store).1.store = _
            rw [same.store]
          · intro key id other otherProgram isCompiled
            exact (same.stage key id).symm.trans isCompiled

/-- **What a request leads to.** -/
theorem effect_of_request {turns : List Turn} {request : Request}
    (allowed : request.isAllowed turns host = true) :
    host.Effect request (Turn.after ⟨host, request⟩) := by
  have tame : ∀ {request : Request}, Obeys Eases request.perform →
      host.Effect request (Turn.after ⟨host, request⟩) := by
    intro request eases
    exact (eases host).effect
  cases request with
  | newRegistry backend => exact tame (eases_newRegistry backend).discard
  | dropRegistry key => exact tame (eases_dropRegistry key)
  | setBackend key backend =>
      refine tame (eases_updateRegistry fun registry => ?_)
      exact fun _ entry _ _ found isStage => ⟨entry, found, isStage⟩
  | newBuilder key => exact tame (eases_newBuilder key _).discard
  | reopen key description =>
      refine tame ?_
      unfold Request.perform
      dsimp only
      split
      · exact (eases_newBuilder key _).discard
      · exact obeys_throw _
  | build key call => exact tame (eases_build key (modify fun state => call.perform state))
  | create key fresh => exact tame (eases_create key fresh)
  | dropBuilder key => exact tame (eases_dropBuilder key)
  | retain key module => exact tame (eases_newRef key module).discard
  | dropRef key => exact tame (eases_dropRef key)
  | newHandle key module => exact tame (eases_newHandle key module).discard
  | cloneHandle key =>
      exact tame (Obeys.discard (obeys_get_bind fun _ => eases_newHandle _ _))
  | bind key module => exact tame (eases_bindHandle key module)
  | release key => exact tame (eases_releaseHandle key)
  | dropHandle key => exact tame (eases_dropHandle key)
  | ask party errand =>
      show host.Effect _ (host.after (discard (Host.ask party errand)))
      rw [after_discard]
      obtain ⟨spoken, known⟩ := Bool.and_eq_true_iff.mp allowed
      obtain ⟨subject, speaks⟩ := Option.isSome_iff_exists.mp spoken
      cases errand with
      | unpack => exact effect_unpack speaks
      | call proc io steps => exact effect_call speaks known
      | _ => exact (eases_ask (by simp) (by simp) party host).effect
  | lookUp key part => exact tame (eases_lookUp key part)
  | newVariable key vtype count =>
      obtain ⟨handle, found⟩ := Option.isSome_iff_exists.mp allowed
      show host.Effect _ (host.after (discard (Host.newVariable key vtype count)))
      rw [after_discard]
      rcases newVariable_cases found vtype count with
        eases | ⟨module, layout, size, described, makes, -, eases⟩
      · exact eases.effect
      · have speaks : host.subject? (.handle key) = some ⟨handle.registry, handle.module⟩ :=
          Option.map_eq_some_iff.mpr ⟨handle, found, rfl⟩
        exact .changes (.newVariable speaks described makes) eases
  | newVar layout count => exact .changes .newVar (eases_same rfl rfl)
  | hold var => exact tame (eases_modify (by intro host; rfl) (by intro host; rfl))
  | unhold var => exact tame (eases_unhold var)
  | edit var edit =>
      show host.Effect _ (host.after (edit.perform var))
      rcases retouches_edit host var edit with same | ⟨change, edits, same⟩
      · rw [same]
        exact Eases.effect (Order.refl host)
      · rw [same]
        exact .changes (.edit edits) (Order.refl _)
  | setOwnedRef owner element slot referent =>
      show host.Effect _ (host.after (Host.setOwnedRef owner element slot referent))
      rcases setOwnedRef_cases host owner element slot referent with same | ⟨store, stored, eases⟩
      · rw [same]
        exact Eases.effect (Order.refl host)
      · refine .changes (.setOwnedRef ?_ stored) eases
        rintro id rfl
        exact (Bool.and_eq_true_iff.mp allowed).2

end

end Host

end ScopeMachine
